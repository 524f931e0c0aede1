/-
  Imghost.Tokens.JsonText — `json.dumps` with sorted keys and no blanks, and `json.loads`.

  The writer is the one of `ensure_ascii`: strings as in `Imghost.Data.JsonString`, the fields of a dict
  by their keys. The reader goes through the text once: a value, then blanks to the end. A container needs a
  stack frame, and where there is none left the reader raises `RecursionError`; `nesting` is how many it has.

  What is proved: a dict of texts, nulls and booleans is read back from its dump, its fields sorted.
-/

import Mathlib.Data.List.Sort
import Imghost.Data.JsonString
import Imghost.Model.Digits
import Imghost.Tokens.Signed

namespace Imghost.Tokens

open Imghost.Data Imghost.Model

/-- What the codec leaves to others. -/
structure JsonLib where
  /-- `float(text)`, of a number. -/
  float : String → Float
  /-- `float.__repr__`, or `NaN`, `Infinity`, `-Infinity`. -/
  floatText : Float → String
  /-- How deep containers may lie in the outermost one. -/
  nesting : Nat
  /-- What stands for a surrogate alone. -/
  lone : Nat → Char

variable (json : JsonLib)

/-! ## dumps -/

/-- A string with its quotes. -/
def quoted (text : String) : List Char := '"' :: (JsonString.escape text.toList ++ ['"'])

mutual

/-- `json.dumps(value, sort_keys=True, separators=(",", ":"))`. -/
def dumpValue : Json → List Char
  | .null => "null".toList
  | .bool b => if b then "true".toList else "false".toList
  | .int n => (toString n).toList
  | .float x => (json.floatText x).toList
  | .str s => quoted s
  | .list items => '[' :: ([','].intercalate (dumpItems items) ++ [']'])
  | .dict fields =>
    '{' :: ([','].intercalate (((dumpFields fields).insertionSort fun a b => a.1 ≤ b.1).map fun field => quoted field.1 ++ ':' :: field.2) ++
      ['}'])

def dumpItems : List Json → List (List Char)
  | [] => []
  | item :: items => dumpValue item :: dumpItems items

def dumpFields : List (String × Json) → List (String × List Char)
  | [] => []
  | (key, value) :: fields => (key, dumpValue value) :: dumpFields fields

end

def jsonDumps (value : Json) : String := String.ofList (dumpValue json value)

/-! ## loads -/

/-- What reads a value off the front of a text. -/
abbrev Scanner := List Char → Except TokenExc (Json × List Char)

def isBlank (c : Char) : Bool := c == ' ' || c == '\t' || c == '\n' || c == '\r'

def skipBlank (text : List Char) : List Char := text.dropWhile isBlank

/-- The mark, and what stands behind it. -/
def expect (mark : Char) : List Char → Except TokenExc (List Char)
  | [] => .error .jsonDecodeError
  | c :: rest => if c = mark then .ok rest else .error .jsonDecodeError

/-- A string behind its opening quote. -/
def scanText (text : List Char) : Except TokenExc (String × List Char) :=
  match JsonString.scanString json.lone text with
  | some (chars, rest) => .ok (String.ofList chars, rest)
  | none => .error .jsonDecodeError

/-- `fields[key] = value`. -/
def setField (fields : List (String × Json)) (key : String) (value : Json) : List (String × Json) :=
  if fields.any (·.1 == key) then fields.map fun field => if field.1 = key then (key, value) else field else fields ++ [(key, value)]

/-- The fields of a dict from its first key on; each takes a character at least, and `fuel` of them are read. -/
def scanFields (scan : Scanner) : Nat → List (String × Json) → Scanner
  | 0, _, _ => .error .jsonDecodeError
  | fuel + 1, fields, text => do
    let text ← expect '"' text
    let (key, text) ← scanText json text
    let text ← expect ':' (skipBlank text)
    let (value, text) ← scan (skipBlank text)
    match skipBlank text with
    | [] => .error .jsonDecodeError
    | mark :: text =>
      if mark = '}' then .ok (.dict (setField fields key value), text)
      else if mark = ',' then scanFields scan fuel (setField fields key value) (skipBlank text)
      else .error .jsonDecodeError

/-- The items of a list from its first one on. -/
def scanItems (scan : Scanner) : Nat → List Json → Scanner
  | 0, _, _ => .error .jsonDecodeError
  | fuel + 1, items, text => do
    let (item, text) ← scan text
    match skipBlank text with
    | [] => .error .jsonDecodeError
    | mark :: text =>
      if mark = ']' then .ok (.list (items ++ [item]), text)
      else if mark = ',' then scanItems scan fuel (items ++ [item]) (skipBlank text)
      else .error .jsonDecodeError

/-- A dict or a list behind its bracket. -/
def scanContainer (scan : Scanner) (isDict : Bool) (text : List Char) : Except TokenExc (Json × List Char) :=
  let text := skipBlank text
  match text with
  | [] => .error .jsonDecodeError
  | c :: rest =>
    if isDict then if c = '}' then .ok (.dict [], rest) else scanFields json scan text.length [] text
    else if c = ']' then .ok (.list [], rest) else scanItems scan text.length [] text

def isAsciiDigit (c : Char) : Bool := '0' ≤ c && c ≤ '9'

/-- The part of a number behind its point. -/
def scanFraction : List Char → List Char × List Char
  | [] => ([], [])
  | c :: rest =>
    let digits := rest.takeWhile isAsciiDigit
    if c = '.' ∧ digits ≠ [] then ('.' :: digits, rest.dropWhile isAsciiDigit) else ([], c :: rest)

def scanExponent : List Char → List Char × List Char
  | [] => ([], [])
  | c :: rest =>
    let sign := rest.takeWhile fun d => d == '+' || d == '-'
    let digits := (rest.drop sign.length).takeWhile isAsciiDigit
    if (c = 'e' ∨ c = 'E') ∧ sign.length ≤ 1 ∧ digits ≠ [] then
      (c :: sign ++ digits, (rest.drop sign.length).dropWhile isAsciiDigit)
    else ([], c :: rest)

/-- A number behind its sign; one without point and exponent is an `int`. -/
def scanNumber (negative : Bool) (text : List Char) : Except TokenExc (Json × List Char) :=
  let whole := match text with
    | '0' :: _ => ['0']
    | _ => text.takeWhile isAsciiDigit
  if whole = [] then .error .jsonDecodeError
  else
    let (fraction, rest) := scanFraction (text.drop whole.length)
    let (exponent, rest) := scanExponent rest
    if fraction = [] ∧ exponent = [] then
      if whole.length ≤ intMaxStrDigits then
        .ok (.int (if negative then -(Nat.ofDigitChars 10 whole 0 : Int) else Nat.ofDigitChars 10 whole 0), rest)
      else
        .error (.valueError ("Exceeds the limit (4300 digits) for integer string conversion: value has " ++ toString whole.length ++
          " digits; use sys.set_int_max_str_digits() to increase the limit"))
    else .ok (.float (json.float (String.ofList ((if negative then ['-'] else []) ++ whole ++ fraction ++ exponent))), rest)

/-- The words that are values. -/
def constants : List (List Char × Json) :=
  [("null".toList, .null), ("true".toList, .bool true), ("false".toList, .bool false), ("NaN".toList, .float (0.0 / 0.0)),
    ("Infinity".toList, .float (1.0 / 0.0)), ("-Infinity".toList, .float (-1.0 / 0.0))]

/-- `scan_once`, where `nested` reads what lies in a container, if there is room for one. -/
def scanValue (nested : Option Scanner) (text : List Char) : Except TokenExc (Json × List Char) :=
  match text with
  | [] => .error .jsonDecodeError
  | c :: rest =>
    if c = '"' then do
      let (s, rest) ← scanText json rest
      return (.str s, rest)
    else if c = '{' ∨ c = '[' then
      match nested with
      | none => .error .recursionError
      | some scan => scanContainer json scan (c = '{') rest
    else
      match constants.find? (·.1.isPrefixOf text) with
      | some (word, value) => .ok (value, text.drop word.length)
      | none => if c = '-' then scanNumber json true rest else scanNumber json false text

def scanOnce : Nat → Scanner
  | 0, text => scanValue json none text
  | nesting + 1, text => scanValue json (some (scanOnce nesting)) text

/-- `json.loads`. -/
def jsonLoads (text : String) : Except TokenExc Json :=
  if text.toList.head? = some '\ufeff' then .error .jsonDecodeError
  else do
    let (value, rest) ← scanOnce json (json.nesting + 1) (skipBlank text.toList)
    if skipBlank rest = [] then return value else .error .jsonDecodeError

/-! ## Round trip -/

section

variable {json}

theorem skipBlank_cons {c : Char} (h : isBlank c = false) (text : List Char) : skipBlank (c :: text) = c :: text :=
  List.dropWhile_cons_of_neg (by simp [h])

theorem expect_mark (mark : Char) (text : List Char) : expect mark (mark :: text) = .ok text := if_pos rfl

theorem scanText_quoted (text : String) (rest : List Char) :
    scanText json (JsonString.escape text.toList ++ '"' :: rest) = .ok (text, rest) := by
  rw [scanText, JsonString.scanString_escape]
  simp only [String.ofList_toList]

theorem scanValue_quote (nested : Option Scanner) (text : List Char) :
    scanValue json nested ('"' :: text) = (scanText json text).map fun p => (.str p.1, p.2) := by
  simp only [scanValue, if_true]
  cases scanText json text <;> rfl

/-- What is no container and no number. -/
def isScalar : Json → Bool
  | .null | .bool _ | .str _ => true
  | _ => false

theorem dump_first {value : Json} (h : isScalar value = true) : ∃ c text, dumpValue json value = c :: text ∧ isBlank c = false := by
  cases value with
  | null => exact ⟨'n', "ull".toList, rfl, rfl⟩
  | bool b =>
    cases b with
    | true => exact ⟨'t', "rue".toList, rfl, rfl⟩
    | false => exact ⟨'f', "alse".toList, rfl, rfl⟩
  | str s => exact ⟨'"', _, rfl, rfl⟩
  | int | float | list | dict => cases h

/-- A scalar is read back, whatever follows it. -/
theorem scan_scalar {value : Json} (h : isScalar value = true) (nested : Option Scanner) (rest : List Char) :
    scanValue json nested (skipBlank (dumpValue json value ++ rest)) = .ok (value, rest) := by
  obtain ⟨c, text, hdump, hblank⟩ := @dump_first json _ h
  have hskip : skipBlank (dumpValue json value ++ rest) = dumpValue json value ++ rest := by
    rw [hdump, List.cons_append, skipBlank_cons hblank]
  rw [hskip]
  cases value with
  | null => rfl
  | bool b => cases b <;> rfl
  | str s =>
    rw [dumpValue, quoted, List.cons_append, List.append_assoc, scanValue_quote, List.singleton_append, scanText_quoted]
    rfl
  | int | float | list | dict => cases h

/-! ### Fields -/

/-- A field as it is written. -/
def fieldText (json : JsonLib) (field : String × Json) : List Char := quoted field.1 ++ ':' :: dumpValue json field.2

/-- What a dict is dumped as: its fields by their keys. -/
def sortFields (fields : List (String × Json)) : List (String × Json) := fields.insertionSort fun a b => a.1 ≤ b.1

theorem dumpFields_map (fields : List (String × Json)) :
    dumpFields json fields = fields.map fun field => (field.1, dumpValue json field.2) := by
  induction fields with
  | nil => simp only [dumpFields, List.map_nil]
  | cons field fields ih =>
    obtain ⟨key, value⟩ := field
    rw [dumpFields, ih, List.map_cons]

theorem dump_dict (fields : List (String × Json)) :
    dumpValue json (.dict fields) = '{' :: ([','].intercalate ((sortFields fields).map (fieldText json)) ++ ['}']) := by
  have hsort : (dumpFields json fields).insertionSort (fun a b => a.1 ≤ b.1) =
      (sortFields fields).map fun field => (field.1, dumpValue json field.2) := by
    rw [dumpFields_map, sortFields]
    exact (List.map_insertionSort (fun a b => a.1 ≤ b.1) (fun a b => a.1 ≤ b.1) (fun field => (field.1, dumpValue json field.2))
      fields fun _ _ _ _ => Iff.rfl).symm
  rw [dumpValue, hsort, List.map_map]
  rfl

theorem setField_new {fields : List (String × Json)} {key : String} (h : key ∉ fields.map (·.1)) (value : Json) :
    setField fields key value = fields ++ [(key, value)] := by
  apply if_neg
  rw [List.any_eq_true]
  intro hfound
  obtain ⟨field, hmem, hkey⟩ := hfound
  exact h (List.mem_map.mpr ⟨field, hmem, by simpa using hkey⟩)

/-- One field, and what is done behind it. -/
theorem scanFields_field {scan : Scanner} {field : String × Json} {rest : List Char}
    (hscan : ∀ rest, scan (skipBlank (dumpValue json field.2 ++ rest)) = .ok (field.2, rest)) (fuel : Nat)
    (fields : List (String × Json)) :
    scanFields json scan (fuel + 1) fields (fieldText json field ++ rest) =
      match skipBlank rest with
      | [] => .error .jsonDecodeError
      | mark :: text =>
        if mark = '}' then .ok (.dict (setField fields field.1 field.2), text)
        else if mark = ',' then scanFields json scan fuel (setField fields field.1 field.2) (skipBlank text)
        else .error .jsonDecodeError := by
  have htext : fieldText json field ++ rest =
      '"' :: (JsonString.escape field.1.toList ++ '"' :: (':' :: (dumpValue json field.2 ++ rest))) := by
    simp [fieldText, quoted]
  rw [htext, scanFields, expect_mark]
  simp only [bind, Except.bind, scanText_quoted, skipBlank_cons (show isBlank ':' = false by decide), expect_mark, hscan]

theorem fieldText_first (field : String × Json) (rest : List Char) : skipBlank (fieldText json field ++ rest) = fieldText json field ++ rest :=
  skipBlank_cons (by decide) _

/-- All fields, up to the bracket. -/
theorem scanFields_dump {scan : Scanner} {fields read : List (String × Json)} {fuel : Nat} (hne : fields ≠ [])
    (hscan : ∀ field ∈ fields, ∀ rest, scan (skipBlank (dumpValue json field.2 ++ rest)) = .ok (field.2, rest))
    (hkeys : ((read ++ fields).map (·.1)).Nodup) (hfuel : fields.length ≤ fuel) (rest : List Char) :
    scanFields json scan fuel read ([','].intercalate (fields.map (fieldText json)) ++ '}' :: rest) =
      .ok (.dict (read ++ fields), rest) := by
  induction fields generalizing read fuel with
  | nil => exact absurd rfl hne
  | cons field fields ih =>
    obtain ⟨fuel, rfl⟩ : ∃ n, fuel = n + 1 := ⟨fuel - 1, by simp only [List.length_cons] at hfuel; omega⟩
    have hfirst := hscan field List.mem_cons_self
    have hnew : field.1 ∉ read.map (·.1) := by
      intro hmem
      rw [List.map_append, List.nodup_append] at hkeys
      exact hkeys.2.2 _ hmem _ (by simp) rfl
    by_cases hlast : fields = []
    · rw [hlast, List.map_singleton, List.intercalate_singleton, scanFields_field hfirst, skipBlank_cons (by decide)]
      simp only [if_true, setField_new hnew]
    · have hrest : read ++ field :: fields = (read ++ [field]) ++ fields := by simp
      have htext : skipBlank ([','].intercalate (fields.map (fieldText json)) ++ '}' :: rest) =
          [','].intercalate (fields.map (fieldText json)) ++ '}' :: rest := by
        obtain ⟨next, others, rfl⟩ := List.exists_cons_of_ne_nil hlast
        rw [List.map_cons]
        by_cases hothers : others = []
        · rw [hothers, List.map_nil, List.intercalate_singleton, fieldText_first]
        · rw [List.intercalate_cons_of_ne_nil (by simpa using hothers), List.append_assoc, List.append_assoc, fieldText_first]
      rw [List.map_cons, List.intercalate_cons_of_ne_nil (by simpa using hlast), List.append_assoc, List.append_assoc,
        scanFields_field hfirst, List.singleton_append, skipBlank_cons (by decide)]
      simp only [show ¬ ',' = '}' by decide, if_false, if_true, setField_new hnew, htext]
      rw [hrest]
      apply ih hlast (fun f hf => hscan f (List.mem_cons_of_mem _ hf))
      · rw [← hrest]
        exact hkeys
      · simp only [List.length_cons] at hfuel
        omega

theorem length_le_intercalate {parts : List (List Char)} (h : ∀ part ∈ parts, part ≠ []) :
    parts.length ≤ ([','].intercalate parts).length := by
  induction parts with
  | nil => simp
  | cons part parts ih =>
    have hpart := List.length_pos_iff.mpr (h part List.mem_cons_self)
    have hparts := ih fun p hp => h p (List.mem_cons_of_mem _ hp)
    by_cases hlast : parts = []
    · rw [hlast, List.intercalate_singleton, List.length_singleton]
      exact hpart
    · rw [List.intercalate_cons_of_ne_nil hlast]
      simp only [List.length_cons, List.length_append, List.length_nil]
      omega

end

/-- A dict of scalars is read back, its fields by their keys. -/
theorem jsonLoads_dumps {fields : List (String × Json)} (hkeys : (fields.map (·.1)).Nodup)
    (hscalar : ∀ field ∈ fields, isScalar field.2 = true) :
    jsonLoads json (jsonDumps json (.dict fields)) = .ok (.dict (sortFields fields)) := by
  have hperm : (sortFields fields).Perm fields := List.perm_insertionSort _ _
  have hcontainer : scanContainer json (scanOnce json json.nesting) true
      ([','].intercalate ((sortFields fields).map (fieldText json)) ++ ['}']) = .ok (.dict (sortFields fields), []) := by
    by_cases hnil : sortFields fields = []
    · rw [hnil]
      rfl
    · have hread := @scanFields_dump json (scanOnce json json.nesting) (sortFields fields) []
        ([','].intercalate ((sortFields fields).map (fieldText json)) ++ ['}']).length hnil
        (by
          intro field hfield rest
          have hvalue := hscalar field (hperm.mem_iff.mp hfield)
          cases json.nesting with
          | zero => exact scan_scalar hvalue _ rest
          | succ n => exact scan_scalar hvalue _ rest)
        (by
          rw [List.nil_append]
          exact (hperm.map _).nodup_iff.mpr hkeys)
        (by
          have hlength := @length_le_intercalate ((sortFields fields).map (fieldText json)) fun part hpart => by
            obtain ⟨field, -, rfl⟩ := List.mem_map.mp hpart
            exact List.cons_ne_nil _ _
          rw [List.length_map] at hlength
          rw [List.length_append]
          omega) []
      obtain ⟨field, others, hcons⟩ := List.exists_cons_of_ne_nil hnil
      obtain ⟨text, htext⟩ : ∃ text, [','].intercalate ((sortFields fields).map (fieldText json)) ++ ['}'] = '"' :: text := by
        rw [hcons, List.map_cons]
        by_cases hothers : others = []
        · rw [hothers, List.map_nil, List.intercalate_singleton]
          exact ⟨_, rfl⟩
        · rw [List.intercalate_cons_of_ne_nil (by simpa using hothers)]
          exact ⟨_, rfl⟩
      rw [htext, List.nil_append] at hread
      rw [htext, scanContainer, skipBlank_cons (by decide)]
      exact hread
  have hscan : scanOnce json (json.nesting + 1) (dumpValue json (.dict fields)) = .ok (.dict (sortFields fields), []) := by
    rw [dump_dict]
    exact hcontainer
  have hfirst : skipBlank (dumpValue json (.dict fields)) = dumpValue json (.dict fields) := by
    rw [dump_dict]
    exact skipBlank_cons (by decide) _
  have hbom : (dumpValue json (.dict fields)).head? ≠ some '\ufeff' := by
    rw [dump_dict]
    simp
  rw [jsonLoads, jsonDumps, String.toList_ofList, if_neg hbom, hfirst, hscan]
  rfl

end Imghost.Tokens
