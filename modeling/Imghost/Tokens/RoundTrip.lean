/-
  Imghost.Tokens.RoundTrip — what was encoded is what is decoded.

  `b64decode (b64encode data)` is `data`, `decodeUtf8` of a text's bytes is the text, and a
  token of a payload and a signature splits into the two.
-/

import Imghost.Sessions.Backend

namespace Imghost.Tokens

open Imghost.Model Imghost.Sessions

/-! ## base64 -/

theorem digit_roundTrip : ∀ v ∈ List.range 64, base64Value (base64Digit v) = some v ∧ base64Digit v ≠ '=' ∧
    base64Digit v ≠ '.' ∧ (base64Digit v).toNat < 128 := by decide

theorem digit_roundTrip_of_lt {v : Nat} (h : v < 64) : base64Value (base64Digit v) = some v ∧ base64Digit v ≠ '=' ∧
    base64Digit v ≠ '.' ∧ (base64Digit v).toNat < 128 := digit_roundTrip v (List.mem_range.mpr h)

section

variable {v : Nat} (h : v < 64) (cs : List Char) (leftover pads : Nat)

include h

/-- One digit at each place of a group of four. -/
theorem a2b_digit :
    a2bBase64 (base64Digit v :: cs) 0 leftover pads = a2bBase64 cs 1 v 0 ∧
    a2bBase64 (base64Digit v :: cs) 1 leftover pads =
      (a2bBase64 cs 2 (v % 16) 0).map (UInt8.ofNat (leftover * 4 + v / 16) :: ·) ∧
    a2bBase64 (base64Digit v :: cs) 2 leftover pads =
      (a2bBase64 cs 3 (v % 4) 0).map (UInt8.ofNat (leftover * 16 + v / 4) :: ·) ∧
    a2bBase64 (base64Digit v :: cs) 3 leftover pads =
      (a2bBase64 cs 0 0 0).map (UInt8.ofNat (leftover * 64 + v) :: ·) := by
  obtain ⟨hvalue, hpad, _⟩ := digit_roundTrip_of_lt h
  refine ⟨?_, ?_, ?_, ?_⟩ <;>
    (rw [a2bBase64, if_neg hpad, hvalue]
     rfl)

theorem a2b_digit_first : a2bBase64 (base64Digit v :: cs) 0 leftover pads = a2bBase64 cs 1 v 0 :=
  (a2b_digit h cs leftover pads).1

theorem a2b_digit_second : a2bBase64 (base64Digit v :: cs) 1 leftover pads =
    (a2bBase64 cs 2 (v % 16) 0).map (UInt8.ofNat (leftover * 4 + v / 16) :: ·) :=
  (a2b_digit h cs leftover pads).2.1

theorem a2b_digit_third : a2bBase64 (base64Digit v :: cs) 2 leftover pads =
    (a2bBase64 cs 3 (v % 4) 0).map (UInt8.ofNat (leftover * 16 + v / 4) :: ·) :=
  (a2b_digit h cs leftover pads).2.2.1

theorem a2b_digit_fourth : a2bBase64 (base64Digit v :: cs) 3 leftover pads =
    (a2bBase64 cs 0 0 0).map (UInt8.ofNat (leftover * 64 + v) :: ·) :=
  (a2b_digit h cs leftover pads).2.2.2

end

/-- The padding `_b64decode` adds to an encoding. -/
def padding (data : Bytes) : List Char := List.replicate ((4 - (b64encode data).length % 4) % 4) '='

theorem a2b_encode (data : Bytes) : a2bBase64 (b64encode data ++ padding data) 0 0 0 = some data := by
  induction data using b64encode.induct with
  | case1 => rfl
  | case2 a =>
    have ha : a.toNat < 256 := a.toNat_lt_size
    have hpadding : padding [a] = ['=', '='] := rfl
    simp only [hpadding, b64encode, List.cons_append, List.nil_append, a2b_digit_first (show a.toNat / 4 < 64 by omega),
      a2b_digit_second (show a.toNat % 4 * 16 < 64 by omega)]
    have hbyte : a.toNat / 4 * 4 + a.toNat % 4 * 16 / 16 = a.toNat := by omega
    rw [hbyte, UInt8.ofNat_toNat]
    rfl
  | case3 a b =>
    have ha : a.toNat < 256 := a.toNat_lt_size
    have hb : b.toNat < 256 := b.toNat_lt_size
    have hpadding : padding [a, b] = ['='] := rfl
    simp only [hpadding, b64encode, List.cons_append, List.nil_append, a2b_digit_first (show a.toNat / 4 < 64 by omega),
      a2b_digit_second (show a.toNat % 4 * 16 + b.toNat / 16 < 64 by omega),
      a2b_digit_third (show b.toNat % 16 * 4 < 64 by omega)]
    have hfirst : a.toNat / 4 * 4 + (a.toNat % 4 * 16 + b.toNat / 16) / 16 = a.toNat := by omega
    have hsecond : (a.toNat % 4 * 16 + b.toNat / 16) % 16 * 16 + b.toNat % 16 * 4 / 4 = b.toNat := by omega
    rw [hfirst, hsecond, UInt8.ofNat_toNat, UInt8.ofNat_toNat]
    rfl
  | case4 a b c rest ih =>
    have ha : a.toNat < 256 := a.toNat_lt_size
    have hb : b.toNat < 256 := b.toNat_lt_size
    have hc : c.toNat < 256 := c.toNat_lt_size
    have hpadding : padding (a :: b :: c :: rest) = padding rest := by
      have hlength : (b64encode (a :: b :: c :: rest)).length = (b64encode rest).length + 4 := rfl
      rw [padding, hlength, Nat.add_mod_right, padding]
    simp only [hpadding, b64encode, List.cons_append, a2b_digit_first (show a.toNat / 4 < 64 by omega),
      a2b_digit_second (show a.toNat % 4 * 16 + b.toNat / 16 < 64 by omega),
      a2b_digit_third (show b.toNat % 16 * 4 + c.toNat / 64 < 64 by omega),
      a2b_digit_fourth (show c.toNat % 64 < 64 by omega), ih]
    have hfirst : a.toNat / 4 * 4 + (a.toNat % 4 * 16 + b.toNat / 16) / 16 = a.toNat := by omega
    have hsecond : (a.toNat % 4 * 16 + b.toNat / 16) % 16 * 16 + (b.toNat % 16 * 4 + c.toNat / 64) / 4 = b.toNat := by omega
    have hthird : (b.toNat % 16 * 4 + c.toNat / 64) % 4 * 64 + c.toNat % 64 = c.toNat := by omega
    simp only [hfirst, hsecond, hthird, UInt8.ofNat_toNat, Option.map_some]

theorem mem_b64encode {data : Bytes} {c : Char} (h : c ∈ b64encode data) : c.toNat < 128 ∧ c ≠ '.' := by
  have hdigit : ∀ v, v < 64 → c = base64Digit v → c.toNat < 128 ∧ c ≠ '.' := by
    intro v hv e
    obtain ⟨_, _, hdot, hascii⟩ := digit_roundTrip_of_lt hv
    exact ⟨e ▸ hascii, e ▸ hdot⟩
  induction data using b64encode.induct with
  | case1 => cases h
  | case2 a =>
    have ha : a.toNat < 256 := a.toNat_lt_size
    simp only [b64encode, List.mem_cons, List.not_mem_nil, or_false] at h
    rcases h with h | h
    · exact hdigit _ (by omega) h
    · exact hdigit _ (by omega) h
  | case3 a b =>
    have ha : a.toNat < 256 := a.toNat_lt_size
    have hb : b.toNat < 256 := b.toNat_lt_size
    simp only [b64encode, List.mem_cons, List.not_mem_nil, or_false] at h
    rcases h with h | h | h
    · exact hdigit _ (by omega) h
    · exact hdigit _ (by omega) h
    · exact hdigit _ (by omega) h
  | case4 a b d rest ih =>
    have ha : a.toNat < 256 := a.toNat_lt_size
    have hb : b.toNat < 256 := b.toNat_lt_size
    have hd : d.toNat < 256 := d.toNat_lt_size
    simp only [b64encode, List.mem_cons] at h
    rcases h with h | h | h | h | h
    · exact hdigit _ (by omega) h
    · exact hdigit _ (by omega) h
    · exact hdigit _ (by omega) h
    · exact hdigit _ (by omega) h
    · exact ih h

theorem repeat_push (n : Nat) (s : String) (c : Char) :
    (n.repeat (fun s => s.push c) s).toList = s.toList ++ List.replicate n c := by
  induction n generalizing s with
  | zero => simp [Nat.repeat]
  | succ n ih => simp [Nat.repeat, ih, List.replicate_succ', String.toList_push]

theorem b64decode_encode (data : Bytes) : b64decode (String.ofList (b64encode data)) = some data := by
  have htext : (String.ofList (b64encode data) ++
      "".pushn '=' ((4 - (String.ofList (b64encode data)).length % 4) % 4)).toList = b64encode data ++ padding data := by
    rw [String.toList_append, String.toList_ofList, String.length_ofList, String.pushn_eq_repeat_push, repeat_push]
    simp [padding]
  have hascii : isAscii (String.ofList (b64encode data) ++
      "".pushn '=' ((4 - (String.ofList (b64encode data)).length % 4) % 4)) = true := by
    simp only [isAscii, htext, List.all_append, Bool.and_eq_true, List.all_eq_true, decide_eq_true_eq]
    refine ⟨fun c hc => (mem_b64encode hc).1, fun c hc => ?_⟩
    rw [List.eq_of_mem_replicate hc]
    decide
  simp only [b64decode, urlsafeB64decode, hascii, if_true, htext, a2b_encode]

/-! ## UTF-8 -/

theorem toList_loop (bytes : ByteArray) (i : Nat) (r : List UInt8) :
    ByteArray.toList.loop bytes i r = r.reverse ++ bytes.data.toList.drop i := by
  induction i, r using ByteArray.toList.loop.induct bytes with
  | case1 i r h ih =>
    have hlt : i < bytes.data.toList.length := by simpa using h
    have hget : bytes.get! i = bytes.data.toList[i] := by
      have hdata : bytes.get! i = bytes.data[i]! := by cases bytes; rfl
      rw [hdata, getElem!_pos bytes.data i (by simpa using hlt)]
      simp
    rw [ByteArray.toList.loop, if_pos h, ih, List.drop_eq_getElem_cons hlt, hget]
    simp
  | case2 i r h =>
    have hle : bytes.data.toList.length ≤ i := by simpa using h
    rw [ByteArray.toList.loop, if_neg h, List.drop_eq_nil_of_le hle, List.append_nil]

theorem decodeUtf8_encode (text : String) : decodeUtf8 text.toUTF8.toList = .ok text := by
  have hbytes : (⟨text.toUTF8.toList.toArray⟩ : ByteArray) = text.toByteArray := by
    rw [ByteArray.toList, toList_loop]
    simp
  have hvalid : String.fromUTF8? text.toByteArray = some text := by
    rw [String.fromUTF8?, dif_pos text.isValidUTF8]
    rfl
  rw [decodeUtf8, hbytes, hvalid]

theorem encode_ne_nil {text : String} (h : text ≠ "") : text.toUTF8.toList ≠ [] := by
  intro hnil
  have hempty : "".toUTF8.toList = [] := by simp
  have hsame := (decodeUtf8_encode text).symm.trans ((congrArg decodeUtf8 (hnil.trans hempty.symm)).trans (decodeUtf8_encode ""))
  exact h (Except.ok.inj hsame)

/-! ## Tokens -/

/-- The token of a payload and its signature. -/
def encodeToken (payload : Bytes) (signature : String) : String := String.ofList (b64encode payload) ++ "." ++ signature

theorem b64encode_ne_nil {payload : Bytes} (h : payload ≠ []) : b64encode payload ≠ [] := by
  match payload, h with
  | [_], _ => simp [b64encode]
  | [_, _], _ => simp [b64encode]
  | _ :: _ :: _ :: _, _ => simp [b64encode]

theorem partitionDot_encode (payload : Bytes) (signature : String) :
    partitionDot (encodeToken payload signature) = (String.ofList (b64encode payload), true, signature) := by
  have htext : (encodeToken payload signature).toList = b64encode payload ++ '.' :: signature.toList := by
    simp [encodeToken]
  have hbefore : ∀ c ∈ b64encode payload, (c != '.') = true := by
    intro c hc
    simpa using (mem_b64encode hc).2
  simp only [partitionDot, htext, List.takeWhile_append_of_pos hbefore, List.dropWhile_append_of_pos hbefore]
  simp

theorem splitToken_encode {payload : Bytes} {signature : String} (hpayload : payload ≠ []) (hsignature : signature ≠ "") :
    splitToken (encodeToken payload signature) = some (payload, signature) := by
  have hne : String.ofList (b64encode payload) ≠ "" := by
    intro e
    exact b64encode_ne_nil hpayload (by simpa using congrArg String.toList e)
  simp only [splitToken, partitionDot_encode, hne, hsignature, b64decode_encode]
  simp

/-- A token splits into nothing else than what it was made of. -/
theorem splitToken_encode_eq {payload : Bytes} {signature : String} {parts : Bytes × String}
    (h : splitToken (encodeToken payload signature) = some parts) : parts = (payload, signature) := by
  simp only [splitToken, partitionDot_encode, b64decode_encode] at h
  split at h
  · cases h
  · exact (Option.some.inj h).symm

end Imghost.Tokens
