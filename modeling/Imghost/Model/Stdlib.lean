/-
  Imghost.Model.Stdlib — what the service uses of Python's standard library and of
  `ids.py`.

  Strings are handled as lists of characters. `str.lower`, `mimetypes` and the
  password hash stay parameters (`Imghost.Model.Runtime`).
-/

import Mathlib.Data.Fin.Basic
import Mathlib.Data.List.OfFn
import Imghost.Model.Types

namespace Imghost.Model

/-! ## str -/

/-- `value or default`, of an optional string. -/
def strOr (value : Option String) (default : String) : String :=
  match value with
  | some s => if s = "" then default else s
  | none => default

/-- `str.isspace` of one character. -/
def isSpace (c : Char) : Bool :=
  let n := c.toNat
  (9 ≤ n && n ≤ 13) || (28 ≤ n && n ≤ 32) || n == 0x85 || n == 0xa0 || n == 0x1680 || (0x2000 ≤ n && n ≤ 0x200a) ||
    n == 0x2028 || n == 0x2029 || n == 0x202f || n == 0x205f || n == 0x3000

/-- `s.strip()`. -/
def strip (s : String) : String :=
  String.ofList (((s.toList.dropWhile isSpace).reverse.dropWhile isSpace).reverse)

/-- `s.lstrip(".")`. -/
def lstripDots (s : String) : String := String.ofList (s.toList.dropWhile (· == '.'))

/-- `s.startswith(start)`. -/
def startsWith (s start : String) : Bool := start.toList.isPrefixOf s.toList

/-- `sub in s`. -/
def isSubstring (sub s : String) : Bool := s.toList.tails.any (sub.toList.isPrefixOf ·)

/-- `s.split("/")`. -/
def splitSlash (s : String) : List (List Char) := s.toList.splitOnP (· == '/')

/-- `s.split("/")[-1]`. -/
def afterLastSlash (s : String) : String := String.ofList ((splitSlash s).getLast?.getD [])

/-- `posixpath.splitext(name)[1]` of a name without slashes: from the last dot on,
    unless only dots stand before it. -/
def splitextSuffix (name : List Char) : List Char :=
  let tail := (name.reverse.takeWhile (· != '.')).reverse
  if tail.length = name.length then []
  else if (name.take (name.length - tail.length - 1)).all (· == '.') then []
  else '.' :: tail

/-- `Path(path).suffix`. -/
def pathSuffix (path : String) : String :=
  let parts := (splitSlash path).filter fun part => part != [] && part != ['.']
  String.ofList (splitextSuffix (parts.getLast?.getD []))

/-! ## secrets -/

def alphabet : List Char := "23456789abcdefghjkmnpqrstuvwxyz".toList

def albumIdLength : Nat := 9
def mediaIdLength : Nat := 12

/-- `generate_id`, of the indices `secrets.choice` draws. -/
def generateId {length : Nat} (draw : Fin length → Fin 31) : String :=
  String.ofList (List.ofFn fun i => alphabet.getD (draw i) '2')

def urlsafeAlphabet : List Char :=
  "ABCDEFGHIJKLMNOPQRSTUVWXYZabcdefghijklmnopqrstuvwxyz0123456789-_".toList

/-- `secrets.token_urlsafe(24)`: 192 random bits in 32 characters of six bits each. -/
def tokenUrlsafe (draw : Fin 32 → Fin 64) : String :=
  String.ofList (List.ofFn fun i => urlsafeAlphabet.getD (draw i) 'A')

theorem tokenUrlsafe_ne_empty (draw : Fin 32 → Fin 64) : tokenUrlsafe draw ≠ "" := by
  intro h
  have := congrArg String.length h
  simp [tokenUrlsafe] at this

/-! ## timedelta -/

/-- `t + timedelta(microseconds=micros)` for a delta whose days are in range. -/
def shift (t : DateTime) (micros : Int) : Except PyExc DateTime :=
  if t + micros < 0 ∨ datetimeMax < t + micros then .error (.overflowError "date value out of range")
  else .ok (t + micros)

/-- `t + timedelta(hours=hours)`. -/
def addHours (t : DateTime) (hours : Int) : Except PyExc DateTime :=
  if hours / 24 < -timedeltaMaxDays ∨ timedeltaMaxDays < hours / 24 then
    .error (.overflowError "days out of range for timedelta")
  else shift t (hours * microsPerHour)

/-- `t - timedelta(days=days)`. -/
def subDays (t : DateTime) (days : Int) : Except PyExc DateTime :=
  if days < -timedeltaMaxDays ∨ timedeltaMaxDays < days then
    .error (.overflowError "days out of range for timedelta")
  else shift t (-days * microsPerDay)

end Imghost.Model
