/-
  Imghost.Web.ByteRange — the `Range` header of a media request.

  `normalize_byte_range` reads `bytes=a-b`, `bytes=a-` or `bytes=-n`, with blanks around
  the two numbers, and clamps what the header asks for to the size of the file. A header
  that is none of these is refused with `InvalidByteRange`, the only exception that
  `stream_media` turns into a response.

  `RangeForm` and `Spells` say what a header asks for, `denotes` which bytes of a file of
  a given size that is. The code decides whether a number may be converted with `isdigit`,
  which holds of `²`; `int` does not take it, nor more than 4300 digits, and raises a
  `ValueError` (`normalize_byte_range_is_total_and_in_bounds_iff`,
  `a_superscript_digit_is_no_invalid_range`).
-/

import Imghost.Data.Trim
import Imghost.Model.Digits

namespace Imghost.Web

open Imghost.Model Imghost.Data

/-! ## storage.py -/

structure ByteRange where
  start : Int
  stop : Int
  deriving DecidableEq, Repr

/-- What `normalize_byte_range` raises: `InvalidByteRange` with the size it was called with, or the
    `ValueError` of `int`. -/
inductive RangeExc where
  | invalidByteRange (size : Int)
  | valueError
  deriving DecidableEq, Repr

/-- `normalize_byte_range` from its two fields on. -/
def rangeOfFields (rawStart rawEnd : List Char) (size : Int) : Except RangeExc (Option ByteRange) :=
  if rawStart ≠ [] then
    if !isdigit rawStart then .error (.invalidByteRange size)
    else
      match pyInt rawStart with
      | none => .error .valueError
      | some start =>
        if start ≥ size then .error (.invalidByteRange size)
        else if rawEnd ≠ [] then
          if !isdigit rawEnd then .error (.invalidByteRange size)
          else
            match pyInt rawEnd with
            | none => .error .valueError
            | some stop =>
              if stop < start then .error (.invalidByteRange size)
              else .ok (some { start := start, stop := min stop (size - 1) })
        else .ok (some { start := start, stop := size - 1 })
  else if rawEnd = [] || !isdigit rawEnd then .error (.invalidByteRange size)
  else
    match pyInt rawEnd with
    | none => .error .valueError
    | some suffixLength =>
      if suffixLength ≤ 0 then .error (.invalidByteRange size)
      else .ok (some { start := size - min (suffixLength : Int) size, stop := size - 1 })

def normalizeByteRange (rangeHeader : Option String) (size : Int) : Except RangeExc (Option ByteRange) :=
  match rangeHeader with
  | none => .ok none
  | some header =>
    if header = "" then .ok none
    else if size ≤ 0 || !startsWith header "bytes=" then .error (.invalidByteRange size)
    else
      let rawSpec := trim isSpace (header.toList.drop 6)
      if rawSpec = [] || rawSpec.contains ',' then .error (.invalidByteRange size)
      else
        let (rawStart, sep, rawEnd) := cut '-' rawSpec
        if !sep then .error (.invalidByteRange size)
        else rangeOfFields (trim isSpace rawStart) (trim isSpace rawEnd) size

/-! ## What a header asks for -/

inductive RangeForm where
  /-- `bytes=a-b` -/
  | closed (a b : Nat)
  /-- `bytes=a-` -/
  | startingAt (a : Nat)
  /-- `bytes=-n` -/
  | suffix (n : Nat)
  deriving DecidableEq, Repr

/-- The bytes of a file of `size` bytes a form asks for, if it asks for any. -/
def RangeForm.denotes (size : Int) : RangeForm → Option ByteRange
  | .closed a b => if a ≤ b ∧ a < size then some { start := a, stop := min b (size - 1) } else none
  | .startingAt a => if a < size then some { start := a, stop := size - 1 } else none
  | .suffix n => if 0 < n ∧ 0 < size then some { start := max 0 (size - n), stop := size - 1 } else none

/-- The header is `bytes=start-stop`, with blanks around the two fields and no comma in them. -/
structure Layout (header : String) (start stop : List Char) : Prop where
  spelled : ∃ w₁ w₂ w₃ w₄, Blank isSpace w₁ ∧ Blank isSpace w₂ ∧ Blank isSpace w₃ ∧ Blank isSpace w₄ ∧
    header.toList = "bytes=".toList ++ ((w₁ ++ start ++ w₂) ++ '-' :: (w₃ ++ stop ++ w₄))
  trimmed_start : Trimmed isSpace start
  trimmed_stop : Trimmed isSpace stop
  single : '-' ∉ start ∧ ',' ∉ start ∧ ',' ∉ stop

/-- A field spells a number: it is not empty and all decimal digits. -/
def FieldSpells (field : List Char) (n : Nat) : Prop := field ≠ [] ∧ numeral field = some n

def FormSpelled (start stop : List Char) : RangeForm → Prop
  | .closed a b => FieldSpells start a ∧ FieldSpells stop b
  | .startingAt a => FieldSpells start a ∧ stop = []
  | .suffix n => start = [] ∧ FieldSpells stop n

/-- The header is of the form. -/
def Spells (header : String) (form : RangeForm) : Prop := ∃ start stop, Layout header start stop ∧ FormSpelled start stop form

/-- What is asked of a result: no range for no header; a range in bounds that the header's form
    denotes; or `InvalidByteRange`. -/
def InBounds (rangeHeader : Option String) (size : Int) : Except RangeExc (Option ByteRange) → Prop
  | .ok none => rangeHeader = none ∨ rangeHeader = some ""
  | .ok (some range) => ∃ header form, rangeHeader = some header ∧ header ≠ "" ∧ Spells header form ∧
      form.denotes size = some range ∧ 0 ≤ range.start ∧ range.start ≤ range.stop ∧ range.stop < size
  | .error (.invalidByteRange reported) => (∃ header, rangeHeader = some header ∧ header ≠ "") ∧ reported = size
  | .error .valueError => False

/-! ## The fields of a header -/

theorem dash_not_space : isSpace '-' = false := by decide

theorem comma_not_space : isSpace ',' = false := by decide

theorem not_mem_of_blank {w : List Char} {c : Char} (hw : Blank isSpace w) (hc : isSpace c = false) : c ∉ w := by
  intro h
  simp [hw c h] at hc

/-- A header has one start field and one end field. -/
theorem layout_unique {header : String} {start stop start' stop' : List Char} (h : Layout header start stop)
    (h' : Layout header start' stop') : start = start' ∧ stop = stop' := by
  obtain ⟨w₁, w₂, w₃, w₄, hw₁, hw₂, hw₃, hw₄, he⟩ := h.spelled
  obtain ⟨v₁, v₂, v₃, v₄, hv₁, hv₂, hv₃, hv₄, he'⟩ := h'.spelled
  have hbody := List.append_cancel_left (he.symm.trans he')
  have hcut := congrArg (cut '-') hbody
  rw [cut_append, cut_append] at hcut
  · injection hcut with hstart hrest
    injection hrest with _ hstop
    have hs := congrArg (trim isSpace) hstart
    have hp := congrArg (trim isSpace) hstop
    rw [trim_append hw₁ hw₂ h.trimmed_start, trim_append hv₁ hv₂ h'.trimmed_start] at hs
    rw [trim_append hw₃ hw₄ h.trimmed_stop, trim_append hv₃ hv₄ h'.trimmed_stop] at hp
    exact ⟨hs, hp⟩
  · simp [not_mem_of_blank hv₁ dash_not_space, not_mem_of_blank hv₂ dash_not_space, h'.single.1]
  · simp [not_mem_of_blank hw₁ dash_not_space, not_mem_of_blank hw₂ dash_not_space, h.single.1]

theorem startsWith_iff (header start : String) : startsWith header start = true ↔ ∃ body, header.toList = start.toList ++ body := by
  unfold startsWith
  rw [List.isPrefixOf_iff_prefix]
  constructor
  · intro ⟨body, h⟩
    exact ⟨body, h.symm⟩
  · intro ⟨body, h⟩
    exact ⟨body, h.symm⟩

/-- The fields the code finds are a layout of the header. -/
theorem layout_of_cut {header : String} {body xs ys : List Char} (he : header.toList = "bytes=".toList ++ body)
    (hxs : '-' ∉ xs) (hbody : trim isSpace body = xs ++ '-' :: ys) (hcomma : ',' ∉ trim isSpace body) :
    Layout header (trim isSpace xs) (trim isSpace ys) := by
  obtain ⟨u, v, hu, hv, huv⟩ := trim_parts (p := isSpace) body
  obtain ⟨x₁, x₂, hx₁, hx₂, hx⟩ := trim_parts (p := isSpace) xs
  obtain ⟨y₁, y₂, hy₁, hy₂, hy⟩ := trim_parts (p := isSpace) ys
  refine ⟨⟨u ++ x₁, x₂, y₁, y₂ ++ v, hu.append hx₁, hx₂, hy₁, hy₂.append hv, ?_⟩, trimmed_trim xs, trimmed_trim ys,
    fun h => hxs (mem_of_mem_trim h), ?_, ?_⟩
  · have hall : body = u ++ ((x₁ ++ trim isSpace xs ++ x₂) ++ '-' :: (y₁ ++ trim isSpace ys ++ y₂)) ++ v := by
      rw [← hx, ← hy, ← hbody]
      exact huv
    rw [he, hall]
    simp
  · intro h
    exact hcomma (by rw [hbody]; simp [mem_of_mem_trim h])
  · intro h
    exact hcomma (by rw [hbody]; simp [mem_of_mem_trim h])

theorem toList_bytes_append {header : String} {body : List Char} (he : header.toList = "bytes=".toList ++ body) :
    header ≠ "" ∧ startsWith header "bytes=" = true ∧ header.toList.drop 6 = body := by
  refine ⟨?_, (startsWith_iff _ _).mpr ⟨_, he⟩, ?_⟩
  · intro e
    simp [e] at he
  · rw [he]
    rfl

/-- The code goes on with the two fields of a header that has them. -/
theorem normalize_of_layout {header : String} {start stop : List Char} {size : Int} (hsize : 0 < size)
    (h : Layout header start stop) : normalizeByteRange (some header) size = rangeOfFields start stop size := by
  obtain ⟨w₁, w₂, w₃, w₄, hw₁, hw₂, hw₃, hw₄, he⟩ := h.spelled
  obtain ⟨hne, hstarts, hdrop⟩ := toList_bytes_append he
  generalize hbody : (w₁ ++ start ++ w₂) ++ '-' :: (w₃ ++ stop ++ w₄) = body at he hdrop
  have hdash : '-' ∈ trim isSpace body := mem_trim_of_mem dash_not_space (by simp [← hbody])
  have hcomma : ',' ∉ trim isSpace body := by
    intro hm
    have hm := mem_of_mem_trim hm
    rw [← hbody] at hm
    simp [not_mem_of_blank hw₁ comma_not_space, not_mem_of_blank hw₂ comma_not_space,
      not_mem_of_blank hw₃ comma_not_space, not_mem_of_blank hw₄ comma_not_space, h.single.2.1, h.single.2.2] at hm
  obtain ⟨xs, ys, hxs, hxy, hcut⟩ := cut_cases hdash
  obtain ⟨hs, hp⟩ := layout_unique h (layout_of_cut he hxs hxy hcomma)
  have hspec : trim isSpace body ≠ [] := by
    intro e
    simp [e] at hdash
  simp only [normalizeByteRange, if_neg hne, hstarts, hdrop, hcut, hspec, hs, hp]
  simp [hcomma, hsize]

/-- A header without two fields is refused. -/
theorem normalize_of_no_layout {header : String} {size : Int} (hne : header ≠ "")
    (h : ∀ start stop, ¬ Layout header start stop) : normalizeByteRange (some header) size = .error (.invalidByteRange size) := by
  simp only [normalizeByteRange, if_neg hne]
  by_cases hstarts : startsWith header "bytes=" = true
  · obtain ⟨body, he⟩ := (startsWith_iff _ _).mp hstarts
    rw [(toList_bytes_append he).2.2]
    by_cases hcomma : ',' ∈ trim isSpace body
    · simp [hcomma]
    · by_cases hdash : '-' ∈ trim isSpace body
      · obtain ⟨xs, ys, hxs, hxy, _⟩ := cut_cases hdash
        exact absurd (layout_of_cut he hxs hxy hcomma) (h _ _)
      · simp [cut_of_not_mem hdash]
  · simp [hstarts]

/-! ## The range of two fields -/

/-- What is asked of the result for two fields. -/
def FieldsInBounds (start stop : List Char) (size : Int) : Except RangeExc (Option ByteRange) → Prop
  | .ok none => False
  | .ok (some range) => ∃ form, FormSpelled start stop form ∧ form.denotes size = some range ∧
      0 ≤ range.start ∧ range.start ≤ range.stop ∧ range.stop < size
  | .error (.invalidByteRange reported) => reported = size
  | .error .valueError => False

/-- `int` takes every field the code gives it. -/
structure FieldsConvert (start stop : List Char) (size : Int) : Prop where
  start_converts : isdigit start = true → Convertible start
  stop_converts : isdigit stop = true → (start = [] ∨ ∃ n, isdigit start = true ∧ numeral start = some n ∧ n < size) →
    Convertible stop

theorem isdigit_ne_nil {text : List Char} (h : isdigit text = true) : text ≠ [] := by
  intro e
  simp [e, isdigit] at h

theorem rangeOfFields_suffix {stop : List Char} {size : Int} (hsize : 0 < size) :
    FieldsInBounds [] stop size (rangeOfFields [] stop size) ↔ FieldsConvert [] stop size := by
  by_cases hdigit : isdigit stop = true
  · have hne := isdigit_ne_nil hdigit
    by_cases hc : Convertible stop
    · obtain ⟨n, hint, hn⟩ := pyInt_of_convertible hc
      have hconvert : FieldsConvert [] stop size := ⟨by simp [isdigit], fun _ _ => hc⟩
      refine iff_of_true ?_ hconvert
      simp only [rangeOfFields, hdigit, hne, hint]
      by_cases hpos : n ≤ 0
      · simp [FieldsInBounds, hpos]
      · simp only [ne_eq, not_true_eq_false, if_false, decide_false, Bool.not_true, Bool.or_self, Bool.false_eq_true, hpos]
        refine ⟨.suffix n, ⟨rfl, hne, hn⟩, ?_, ?_, ?_, ?_⟩
        · have hmax : max 0 (size - n) = size - min (n : Int) size := by omega
          simp [RangeForm.denotes, hsize, hmax, Nat.pos_of_ne_zero (by omega : n ≠ 0)]
        · show 0 ≤ size - min (n : Int) size
          omega
        · show size - min (n : Int) size ≤ size - 1
          omega
        · show size - 1 < size
          omega
    · refine iff_of_false ?_ fun h => hc (h.stop_converts hdigit (Or.inl rfl))
      simp [rangeOfFields, hdigit, hne, pyInt_of_not_convertible hc, FieldsInBounds]
  · refine iff_of_true ?_ ⟨by simp [isdigit], fun h => absurd h hdigit⟩
    simp [rangeOfFields, hdigit, FieldsInBounds]

theorem rangeOfFields_from {start stop : List Char} {size : Int} (hstart : start ≠ []) :
    FieldsInBounds start stop size (rangeOfFields start stop size) ↔ FieldsConvert start stop size := by
  by_cases hdigit : isdigit start = true
  · by_cases hc : Convertible start
    · obtain ⟨n, hint, hn⟩ := pyInt_of_convertible hc
      by_cases hlt : (n : Int) < size
      · simp only [rangeOfFields, ne_eq, hstart, not_false_eq_true, if_true, hdigit, Bool.not_true, Bool.false_eq_true,
          if_false, hint, ge_iff_le, Int.not_le.mpr hlt]
        by_cases hstop : stop = []
        · refine iff_of_true ?_ ⟨fun _ => hc, fun h => absurd hstop (isdigit_ne_nil h)⟩
          simp only [hstop, not_true_eq_false, if_false]
          refine ⟨.startingAt n, ⟨⟨hstart, hn⟩, rfl⟩, by simp [RangeForm.denotes, hlt], ?_, ?_, ?_⟩
          · show (0 : Int) ≤ n
            omega
          · show (n : Int) ≤ size - 1
            omega
          · show size - 1 < size
            omega
        · by_cases hdigit' : isdigit stop = true
          · by_cases hc' : Convertible stop
            · obtain ⟨m, hint', hm⟩ := pyInt_of_convertible hc'
              refine iff_of_true ?_ ⟨fun _ => hc, fun _ _ => hc'⟩
              simp only [hstop, not_false_eq_true, if_true, hdigit', Bool.not_true, Bool.false_eq_true, if_false, hint']
              by_cases hback : m < n
              · simp [hback, FieldsInBounds]
              · rw [if_neg hback]
                refine ⟨.closed n m, ⟨⟨hstart, hn⟩, hstop, hm⟩, by simp [RangeForm.denotes, hlt]; omega, ?_, ?_, ?_⟩
                · show (0 : Int) ≤ n
                  omega
                · show (n : Int) ≤ min (m : Int) (size - 1)
                  omega
                · show min (m : Int) (size - 1) < size
                  omega
            · refine iff_of_false ?_ fun h => hc' (h.stop_converts hdigit' (Or.inr ⟨n, hdigit, hn, hlt⟩))
              simp [hstop, hdigit', pyInt_of_not_convertible hc', FieldsInBounds]
          · refine iff_of_true ?_ ⟨fun _ => hc, fun h => absurd h hdigit'⟩
            simp [hstop, hdigit', FieldsInBounds]
      · have hconvert : FieldsConvert start stop size := by
          refine ⟨fun _ => hc, ?_⟩
          intro _ h
          rcases h with h | ⟨n', _, hn', hlt'⟩
          · exact absurd h hstart
          · rw [hn] at hn'
            injection hn' with hn'
            omega
        refine iff_of_true ?_ hconvert
        simp [rangeOfFields, hstart, hdigit, hint, FieldsInBounds, Int.not_lt.mp hlt]
    · refine iff_of_false ?_ fun h => hc (h.start_converts hdigit)
      simp [rangeOfFields, hstart, hdigit, pyInt_of_not_convertible hc, FieldsInBounds]
  · have hconvert : FieldsConvert start stop size := by
      refine ⟨fun h => absurd h hdigit, ?_⟩
      intro _ h
      rcases h with h | ⟨_, h, _⟩
      · exact absurd h hstart
      · exact absurd h hdigit
    refine iff_of_true ?_ hconvert
    simp [rangeOfFields, hstart, hdigit, FieldsInBounds]

/-! ## The header -/

/-- Whatever fields the header has, `int` takes those the code gives it; a size that is not
    positive is refused before. -/
def Converts (header : String) (size : Int) : Prop := 0 < size → ∀ start stop, Layout header start stop → FieldsConvert start stop size

theorem inBounds_of_layout {header : String} {start stop : List Char} {size : Int} (hne : header ≠ "")
    (h : Layout header start stop) (result : Except RangeExc (Option ByteRange)) (hok : result ≠ .ok none) :
    InBounds (some header) size result ↔ FieldsInBounds start stop size result := by
  match result, hok with
  | .ok (some range), _ =>
    constructor
    · intro ⟨header', form, heq, _, ⟨start', stop', h', hform⟩, hrest⟩
      injection heq with heq
      subst heq
      obtain ⟨hs, hp⟩ := layout_unique h h'
      subst hs hp
      exact ⟨form, hform, hrest⟩
    · intro ⟨form, hform, hrest⟩
      exact ⟨header, form, rfl, hne, ⟨start, stop, h, hform⟩, hrest⟩
  | .error (.invalidByteRange reported), _ => simp [InBounds, FieldsInBounds, hne]
  | .error .valueError, _ => simp [InBounds, FieldsInBounds]

theorem rangeOfFields_ne_none (start stop : List Char) (size : Int) : rangeOfFields start stop size ≠ .ok none := by
  unfold rangeOfFields
  repeat' split
  all_goals simp

theorem converts_of_layout {header : String} {start stop : List Char} {size : Int} (hsize : 0 < size)
    (h : Layout header start stop) : Converts header size ↔ FieldsConvert start stop size := by
  constructor
  · intro hc
    exact hc hsize start stop h
  · intro hc _ start' stop' h'
    obtain ⟨hs, hp⟩ := layout_unique h h'
    exact hs ▸ hp ▸ hc

/-- No range for no header, a range in bounds that the header's form denotes, or
    `InvalidByteRange`: exactly if `int` takes every number the code gives it. -/
theorem normalize_byte_range_is_total_and_in_bounds_iff (rangeHeader : Option String) (size : Int) :
    InBounds rangeHeader size (normalizeByteRange rangeHeader size) ↔ ∀ header, rangeHeader = some header → Converts header size := by
  cases rangeHeader with
  | none => simp [normalizeByteRange, InBounds]
  | some header =>
    simp only [Option.some.injEq, forall_eq']
    by_cases hne : header = ""
    · have hlayout : Converts header size := by
        intro _ start stop h
        obtain ⟨_, _, _, _, _, _, _, _, he⟩ := h.spelled
        exact absurd hne (toList_bytes_append he).1
      simp [normalizeByteRange, hne, InBounds]
      exact hne ▸ hlayout
    · by_cases hsize : 0 < size
      · by_cases hlayout : ∃ start stop, Layout header start stop
        · obtain ⟨start, stop, h⟩ := hlayout
          rw [normalize_of_layout hsize h, inBounds_of_layout hne h _ (rangeOfFields_ne_none start stop size),
            converts_of_layout hsize h]
          by_cases hstart : start = []
          · subst hstart
            exact rangeOfFields_suffix hsize
          · exact rangeOfFields_from hstart
        · have hnone : ∀ start stop, ¬ Layout header start stop := fun start stop h => hlayout ⟨start, stop, h⟩
          rw [normalize_of_no_layout hne hnone]
          exact iff_of_true ⟨⟨header, rfl, hne⟩, rfl⟩ fun _ start stop h => absurd h (hnone start stop)
      · have hrefused : normalizeByteRange (some header) size = .error (.invalidByteRange size) := by
          simp [normalizeByteRange, hne, Int.not_lt.mp hsize]
        rw [hrefused]
        exact iff_of_true ⟨⟨header, rfl, hne⟩, rfl⟩ fun h => absurd h hsize

/-- `²` is a digit to `isdigit` and none to `int`. -/
theorem a_superscript_digit_is_no_invalid_range :
    normalizeByteRange (some "bytes=²-") 10 = .error .valueError ∧
      ¬ InBounds (some "bytes=²-") 10 (normalizeByteRange (some "bytes=²-") 10) := by
  have h : normalizeByteRange (some "bytes=²-") 10 = .error .valueError := by decide +kernel
  refine ⟨h, ?_⟩
  rw [h]
  intro hbad
  exact hbad

/-! ## Headers that raise ValueError -/

theorem rangeOfFields_valueError {start stop : List Char} {size : Int} (hsize : 0 < size) :
    rangeOfFields start stop size = .error .valueError ↔ ¬ FieldsConvert start stop size := by
  have hraises : ∀ result : Except RangeExc (Option ByteRange), result = .error .valueError →
      ¬ FieldsInBounds start stop size result := by
    intro result h
    rw [h]
    exact fun hbad => hbad
  constructor
  · intro h
    by_cases hstart : start = []
    · subst hstart
      rw [← rangeOfFields_suffix hsize]
      exact hraises _ h
    · rw [← rangeOfFields_from hstart]
      exact hraises _ h
  · intro h
    by_cases hfirst : isdigit start = true ∧ ¬ Convertible start
    · simp [rangeOfFields, isdigit_ne_nil hfirst.1, hfirst.1, pyInt_of_not_convertible hfirst.2]
    · have hsecond : ∃ _ : isdigit stop = true, (start = [] ∨ ∃ n, isdigit start = true ∧ numeral start = some n ∧ n < size) ∧
          ¬ Convertible stop := by
        by_contra hnone
        apply h
        refine ⟨fun hdigit => by_contra fun hc => hfirst ⟨hdigit, hc⟩, fun hdigit hreached => ?_⟩
        by_contra hc
        exact hnone ⟨hdigit, hreached, hc⟩
      obtain ⟨hdigit, hreached, hc⟩ := hsecond
      rcases hreached with rfl | ⟨n, hdigit', hn, hlt⟩
      · simp [rangeOfFields, isdigit_ne_nil hdigit, hdigit, pyInt_of_not_convertible hc]
      · have hconvert : Convertible start := by_contra fun hc' => hfirst ⟨hdigit', hc'⟩
        obtain ⟨m, hint, hm⟩ := pyInt_of_convertible hconvert
        obtain rfl : m = n := Option.some.inj (hm.symm.trans hn)
        simp [rangeOfFields, isdigit_ne_nil hdigit', hdigit', hint, Int.not_le.mpr hlt, isdigit_ne_nil hdigit, hdigit,
          pyInt_of_not_convertible hc]

/-- `ValueError` is raised exactly where `int` does not take a number the code gives it. -/
theorem normalize_valueError_iff (header : String) (size : Int) :
    normalizeByteRange (some header) size = .error .valueError ↔ ¬ Converts header size := by
  by_cases hne : header = ""
  · have hconvert : Converts header size := by
      intro _ start stop h
      obtain ⟨_, _, _, _, _, _, _, _, he⟩ := h.spelled
      exact absurd hne (toList_bytes_append he).1
    refine iff_of_false ?_ (not_not.mpr hconvert)
    simp [normalizeByteRange, hne]
  · by_cases hsize : 0 < size
    · by_cases hlayout : ∃ start stop, Layout header start stop
      · obtain ⟨start, stop, h⟩ := hlayout
        rw [normalize_of_layout hsize h, converts_of_layout hsize h, rangeOfFields_valueError hsize]
      · have hnone : ∀ start stop, ¬ Layout header start stop := fun start stop h => hlayout ⟨start, stop, h⟩
        rw [normalize_of_no_layout hne hnone]
        exact iff_of_false (fun h => nomatch h) (not_not.mpr fun _ start stop h => absurd h (hnone start stop))
    · refine iff_of_false ?_ (not_not.mpr fun h => absurd h hsize)
      simp [normalizeByteRange, hne, Int.not_lt.mp hsize]

/-! ## Refused headers -/

theorem FieldSpells.digits {field : List Char} {n : Nat} (h : FieldSpells field n) :
    isdigit field = true ∧ (pyInt field = none ∨ pyInt field = some n) := by
  refine ⟨?_, ?_⟩
  · simp only [isdigit, bne_iff_ne, ne_eq, h.1, not_false_eq_true, Bool.and_eq_true, List.all_eq_true]
    exact ⟨trivial, numeral_digits h.2⟩
  · unfold pyInt
    split
    · exact Or.inr h.2
    · exact Or.inl rfl

theorem refused_fields {start stop : List Char} {size reported : Int}
    (h : rangeOfFields start stop size = .error (.invalidByteRange reported)) {form : RangeForm}
    (hform : FormSpelled start stop form) : form.denotes size = none := by
  cases form with
  | closed a b =>
    obtain ⟨hdigit, hint⟩ := hform.1.digits
    obtain ⟨hdigit', hint'⟩ := hform.2.digits
    simp only [RangeForm.denotes, ite_eq_right_iff, reduceCtorEq, imp_false, not_and, Int.not_lt]
    intro hab
    rcases hint with hint | hint
    · simp [rangeOfFields, hform.1.1, hdigit, hint] at h
    · rcases hint' with hint' | hint'
      · by_contra hlt
        simp [rangeOfFields, hform.1.1, hdigit, hint, hform.2.1, hdigit', hint', hlt] at h
      · by_contra hlt
        simp [rangeOfFields, hform.1.1, hdigit, hint, hform.2.1, hdigit', hint', hlt, Nat.not_lt.mpr hab] at h
  | startingAt a =>
    obtain ⟨hdigit, hint⟩ := hform.1.digits
    simp only [RangeForm.denotes, ite_eq_right_iff, reduceCtorEq, imp_false, Int.not_lt]
    rcases hint with hint | hint
    · simp [rangeOfFields, hform.1.1, hdigit, hint] at h
    · by_contra hlt
      simp [rangeOfFields, hform.1.1, hdigit, hint, hform.2, hlt] at h
  | suffix n =>
    obtain ⟨hdigit, hint⟩ := hform.2.digits
    simp only [RangeForm.denotes, ite_eq_right_iff, reduceCtorEq, imp_false, not_and, Int.not_lt]
    intro hpos
    rcases hint with hint | hint
    · simp [rangeOfFields, hform.1, hform.2.1, hdigit, hint] at h
    · simp [rangeOfFields, hform.1, hform.2.1, hdigit, hint, Nat.ne_of_gt hpos] at h

/-- A header that is refused asks for no bytes of the file. -/
theorem refused_denotes_nothing {header : String} {size reported : Int}
    (h : normalizeByteRange (some header) size = .error (.invalidByteRange reported)) (form : RangeForm)
    (hform : Spells header form) : form.denotes size = none := by
  by_cases hsize : 0 < size
  · obtain ⟨start, stop, hlayout, hform⟩ := hform
    rw [normalize_of_layout hsize hlayout] at h
    exact refused_fields h hform
  · cases form with
    | closed a b => simp only [RangeForm.denotes, ite_eq_right_iff, reduceCtorEq, imp_false]; omega
    | startingAt a => simp only [RangeForm.denotes, ite_eq_right_iff, reduceCtorEq, imp_false]; omega
    | suffix n => simp [RangeForm.denotes, hsize]

/-- A header has one form at most. -/
theorem spells_unique {header : String} {form form' : RangeForm} (h : Spells header form) (h' : Spells header form') :
    form = form' := by
  obtain ⟨start, stop, hlayout, hform⟩ := h
  obtain ⟨start', stop', hlayout', hform'⟩ := h'
  obtain ⟨hs, hp⟩ := layout_unique hlayout hlayout'
  subst hs hp
  cases form with
  | closed a b =>
    cases form' with
    | closed a' b' =>
      have ha := Option.some.inj (hform.1.2.symm.trans hform'.1.2)
      have hb := Option.some.inj (hform.2.2.symm.trans hform'.2.2)
      rw [ha, hb]
    | startingAt a' => exact absurd hform'.2 hform.2.1
    | suffix n' => exact absurd hform'.1 hform.1.1
  | startingAt a =>
    cases form' with
    | closed a' b' => exact absurd hform.2 hform'.2.1
    | startingAt a' => rw [Option.some.inj (hform.1.2.symm.trans hform'.1.2)]
    | suffix n' => exact absurd hform'.1 hform.1.1
  | suffix n =>
    cases form' with
    | closed a' b' => exact absurd hform.1 hform'.1.1
    | startingAt a' => exact absurd hform.1 hform'.1.1
    | suffix n' => rw [Option.some.inj (hform.2.2.symm.trans hform'.2.2)]

end Imghost.Web
