/-
  Imghost.Web.UrlParts — any text as `urlsplit` cuts it.

  What stands before the query and the fragment decides the scheme, the network location
  and the path, and whether the text can be split at all; `splitHead` reads it. Nothing
  that stands behind has a say in it.

  - `urlsplit_text`: the head is read by itself, and the query and the fragment are taken
    as they are.
  - `splitHead_unsplitHead`: a head that has been written back is read as it was before.
-/

import Imghost.Web.UrlText

namespace Imghost.Web

open Imghost.Data Imghost.Model

/-! ## Parts -/

/-- A character of the part before the query and the fragment. -/
def isHeadChar (c : Char) : Bool := c != '?' && c != '#'

/-- A text cut at the first `?` or `#`, and at the first `#` after it. -/
@[ext] structure UrlParts where
  head : List Char
  query : Option (List Char)
  fragment : Option (List Char)
  head_chars : ∀ c ∈ head, isHeadChar c = true
  query_chars : ∀ q, query = some q → '#' ∉ q

namespace UrlParts

variable (p : UrlParts)

def queryText : List Char := (p.query.map ('?' :: ·)).getD []

def fragmentText : List Char := (p.fragment.map ('#' :: ·)).getD []

def tail : List Char := p.queryText ++ p.fragmentText

def text : List Char := p.head ++ p.tail

/-- A head, and the text after its `?`. -/
def ofQuery (head : List Char) (hhead : ∀ c ∈ head, isHeadChar c = true) (rest : List Char) : UrlParts where
  head := head
  query := some (cut '#' rest).1
  fragment := if (cut '#' rest).2.1 then some (cut '#' rest).2.2 else none
  head_chars := hhead
  query_chars := by
    intro q hq hmem
    obtain rfl := Option.some.inj hq
    exact absurd (List.mem_takeWhile_imp hmem) (by decide)

/-- A head, and the text behind it. -/
def ofTail (head : List Char) (hhead : ∀ c ∈ head, isHeadChar c = true) : List Char → UrlParts
  | [] => ⟨head, none, none, hhead, fun _ hq => nomatch hq⟩
  | c :: rest => if c = '?' then ofQuery head hhead rest else ⟨head, none, some rest, hhead, fun _ hq => nomatch hq⟩

def ofText (l : List Char) : UrlParts :=
  ofTail (l.takeWhile isHeadChar) (fun _ hc => List.mem_takeWhile_imp hc) (l.dropWhile isHeadChar)

theorem text_ofQuery (head : List Char) (hhead : ∀ c ∈ head, isHeadChar c = true) (rest : List Char) :
    (ofQuery head hhead rest).text = head ++ '?' :: rest := by
  by_cases h : '#' ∈ rest
  · obtain ⟨xs, ys, -, rfl, hcut⟩ := cut_cases h
    simp [text, tail, queryText, fragmentText, ofQuery, hcut]
  · simp [text, tail, queryText, fragmentText, ofQuery, cut_of_not_mem h]

theorem text_ofTail (head : List Char) (hhead : ∀ c ∈ head, isHeadChar c = true) {l : List Char}
    (hl : ∀ c rest, l = c :: rest → isHeadChar c = false) : (ofTail head hhead l).text = head ++ l := by
  cases l with
  | nil => simp [ofTail, text, tail, queryText, fragmentText]
  | cons c rest =>
    rw [ofTail]
    split
    · rename_i hmark
      rw [text_ofQuery, hmark]
    · rename_i hmark
      have hhash : c = '#' := by
        have := hl c rest rfl
        simpa [isHeadChar, hmark] using this
      simp [text, tail, queryText, fragmentText, hhash]

/-- Every text has its parts. -/
theorem text_ofText (l : List Char) : (ofText l).text = l := by
  rw [ofText, text_ofTail _ _ fun c rest h => dropWhile_head h]
  exact List.takeWhile_append_dropWhile

theorem ofTail_tail : ofTail p.head p.head_chars p.tail = p := by
  obtain ⟨head, query, fragment, hhead, hquery⟩ := p
  cases query with
  | none =>
    cases fragment with
    | none => rfl
    | some f => simp [ofTail, tail, queryText, fragmentText]
  | some q =>
    have hq : '#' ∉ q := hquery q rfl
    cases fragment with
    | none => simp [ofTail, ofQuery, tail, queryText, fragmentText, cut_of_not_mem hq]
    | some f => simp [ofTail, ofQuery, tail, queryText, fragmentText, cut_append hq]

theorem tail_first : ∀ c rest, p.tail = c :: rest → isHeadChar c = false := by
  obtain ⟨head, query, fragment, -, -⟩ := p
  intro c rest h
  cases query with
  | some q =>
    simp only [tail, queryText, Option.map_some, Option.getD_some, List.cons_append, List.cons.injEq] at h
    rw [← h.1]
    rfl
  | none =>
    cases fragment with
    | none => cases h
    | some f =>
      simp only [tail, queryText, fragmentText, Option.map_none, Option.getD_none, Option.map_some, Option.getD_some,
        List.nil_append, List.cons.injEq] at h
      rw [← h.1]
      rfl

theorem mem_text {c : Char} (h : c ∈ p.text) :
    c ∈ p.head ∨ c = '?' ∨ c = '#' ∨ (∃ q, p.query = some q ∧ c ∈ q) ∨ ∃ f, p.fragment = some f ∧ c ∈ f := by
  rw [text, tail, List.mem_append, List.mem_append] at h
  rcases h with h | h | h
  · exact .inl h
  · cases hq : p.query with
    | none => simp [queryText, hq] at h
    | some q =>
      simp only [queryText, hq, Option.map_some, Option.getD_some, List.mem_cons] at h
      rcases h with h | h
      · exact .inr (.inl h)
      · exact .inr (.inr (.inr (.inl ⟨q, rfl, h⟩)))
  · cases hf : p.fragment with
    | none => simp [fragmentText, hf] at h
    | some f =>
      simp only [fragmentText, hf, Option.map_some, Option.getD_some, List.mem_cons] at h
      rcases h with h | h
      · exact .inr (.inr (.inl h))
      · exact .inr (.inr (.inr (.inr ⟨f, rfl, h⟩)))

theorem text_fragment {f : List Char} (h : p.fragment = some f) : p.text = p.head ++ p.queryText ++ '#' :: f := by
  simp [text, tail, fragmentText, h]

/-- And no others. -/
theorem ofText_text : ofText p.text = p := by
  have htail : p.tail.takeWhile isHeadChar = [] ∧ p.tail.dropWhile isHeadChar = p.tail := by
    cases h : p.tail with
    | nil => exact ⟨rfl, rfl⟩
    | cons c rest => simp [p.tail_first c rest h]
  have htake : p.text.takeWhile isHeadChar = p.head := by
    rw [text, List.takeWhile_append_of_pos p.head_chars, htail.1, List.append_nil]
  have hdrop : p.text.dropWhile isHeadChar = p.tail := by
    rw [text, List.dropWhile_append_of_pos p.head_chars, htail.2]
  have hparts : ∀ {head l : List Char} (hhead : ∀ c ∈ head, isHeadChar c = true), head = p.head → l = p.tail →
      ofTail head hhead l = p := by
    intro head l hhead he hl
    subst he hl
    exact p.ofTail_tail
  exact hparts _ htake hdrop

end UrlParts

/-! ## Splitting -/

/-- What `urlsplit` drops of a text. -/
def cleaned (l : List Char) : List Char := (l.dropWhile (·.toNat ≤ 32)).filter (!isLineBreak ·)

/-- The scheme, the network location and the path. -/
def splitHead (lib : UrlLib) (head : List Char) : Except UrlExc (String × String × String) := do
  let (scheme, url) := splitScheme lib (String.ofList head)
  let (netloc, path) := splitNetloc url
  if netloc.isSome then checkBrackets lib (netloc.getD "")
  checknetloc lib (netloc.getD "")
  return (scheme, netloc.getD "", path)

section

variable {lib : UrlLib}

theorem startsWith_slashes (l : List Char) : startsWith (String.ofList l) "//" = true ↔ ∃ rest, l = '/' :: '/' :: rest := by
  have hslashes : "//".toList = ['/', '/'] := rfl
  rw [startsWith, hslashes, String.toList_ofList, List.isPrefixOf_iff_prefix]
  constructor
  · intro h
    obtain ⟨rest, h⟩ := h
    exact ⟨rest, h.symm⟩
  · intro h
    obtain ⟨rest, h⟩ := h
    exact ⟨rest, h.symm⟩

/-- A scheme in front: letters, and then a colon. -/
theorem splitScheme_some {name rest : List Char} (hname : name.head?.any Char.isAlpha = true)
    (hchars : ∀ c ∈ name, isSchemeChar c = true) :
    splitScheme lib (String.ofList (name ++ ':' :: rest)) = (lib.lower (String.ofList name), String.ofList rest) := by
  have hcolon : ':' ∉ name := not_mem_of_all hchars (by decide)
  have hall : name.all isSchemeChar = true := List.all_eq_true.mpr hchars
  rw [splitScheme, partition_append hcolon]
  simp [hname, hall]

/-- No scheme: no colon, or something before it that is none. -/
theorem splitScheme_none {l : List Char} (h : ∀ name rest, l = name ++ ':' :: rest → ':' ∉ name →
      (name.head?.any Char.isAlpha && name.all isSchemeChar) = false) :
    splitScheme lib (String.ofList l) = ("", String.ofList l) := by
  by_cases hcolon : ':' ∈ l
  · obtain ⟨name, rest, hname, rfl, -⟩ := cut_cases hcolon
    have hnone := h name rest rfl hname
    rw [splitScheme, partition_append hname]
    simp only [String.toList_ofList, Bool.true_and, hnone, Bool.false_eq_true, if_false]
  · rw [splitScheme, partition_absent hcolon]
    rfl

/-- Every head begins with a scheme, or with none. -/
theorem scheme_cases (l : List Char) :
    (∃ name rest, l = name ++ ':' :: rest ∧ name.head?.any Char.isAlpha = true ∧ ∀ c ∈ name, isSchemeChar c = true) ∨
      ∀ name rest, l = name ++ ':' :: rest → ':' ∉ name → (name.head?.any Char.isAlpha && name.all isSchemeChar) = false := by
  by_cases hcolon : ':' ∈ l
  · obtain ⟨name, rest, hname, rfl, hcut⟩ := cut_cases hcolon
    by_cases hscheme : (name.head?.any Char.isAlpha && name.all isSchemeChar) = true
    · obtain ⟨hfirst, hall⟩ := Bool.and_eq_true_iff.mp hscheme
      exact .inl ⟨name, rest, rfl, hfirst, List.all_eq_true.mp hall⟩
    · right
      intro name' rest' he hname'
      have hcut' : cut ':' (name ++ ':' :: rest) = (name', true, rest') := by rw [he, cut_append hname']
      rw [hcut] at hcut'
      obtain rfl := (Prod.mk.inj hcut').1
      exact Bool.not_eq_true _ ▸ hscheme
  · right
    intro name rest he
    subst he
    simp at hcolon

/-- A character that ends a network location. -/
def endsNetloc (c : Char) : Bool := ['/', '?', '#'].contains c

/-- What stands behind a network location. -/
def BehindNetloc (l : List Char) : Prop := ∀ c rest, l = c :: rest → endsNetloc c = true

theorem splitNetloc_some {netloc rest : List Char} (hnetloc : ∀ c ∈ netloc, endsNetloc c = false) (hrest : BehindNetloc rest) :
    splitNetloc (String.ofList ('/' :: '/' :: (netloc ++ rest))) = (some (String.ofList netloc), String.ofList rest) := by
  have hstarts : startsWith (String.ofList ('/' :: '/' :: (netloc ++ rest))) "//" = true :=
    (startsWith_slashes _).mpr ⟨_, rfl⟩
  have hkeep : ∀ c ∈ netloc, (!(['/', '?', '#'].contains c)) = true := by
    intro c hc
    have := hnetloc c hc
    rw [endsNetloc] at this
    rw [this]
    rfl
  have hend : rest.takeWhile (fun c => !(['/', '?', '#'].contains c)) = [] := by
    cases rest with
    | nil => rfl
    | cons c rest =>
      have := hrest c rest rfl
      rw [endsNetloc] at this
      rw [List.takeWhile_cons, this]
      rfl
  have htake : (netloc ++ rest).takeWhile (fun c => !(['/', '?', '#'].contains c)) = netloc := by
    rw [List.takeWhile_append_of_pos hkeep, hend, List.append_nil]
  simp only [splitNetloc, hstarts, if_true, String.toList_ofList, List.drop_succ_cons, List.drop_zero, htake, List.drop_left]

theorem splitNetloc_none {l : List Char} (h : ∀ rest, l ≠ '/' :: '/' :: rest) :
    splitNetloc (String.ofList l) = (none, String.ofList l) := by
  have hstarts : startsWith (String.ofList l) "//" = false := by
    rw [← Bool.not_eq_true, startsWith_slashes]
    intro hslashes
    obtain ⟨rest, hrest⟩ := hslashes
    exact h rest hrest
  simp [splitNetloc, hstarts]

theorem netloc_cases (l : List Char) :
    (∃ netloc rest, l = '/' :: '/' :: (netloc ++ rest) ∧ (∀ c ∈ netloc, endsNetloc c = false) ∧ BehindNetloc rest) ∨
      ∀ rest, l ≠ '/' :: '/' :: rest := by
  by_cases h : ∃ rest, l = '/' :: '/' :: rest
  · obtain ⟨rest, rfl⟩ := h
    left
    refine ⟨rest.takeWhile (!endsNetloc ·), rest.dropWhile (!endsNetloc ·), by rw [List.takeWhile_append_dropWhile], ?_, ?_⟩
    · intro c hc
      simpa using List.mem_takeWhile_imp hc
    · intro c rest' he
      simpa using dropWhile_head he
  · right
    intro rest he
    exact h ⟨rest, he⟩

/-! ### What stands behind the head -/

/-- Empty, or a query or a fragment. -/
def BehindHead (l : List Char) : Prop := ∀ c rest, l = c :: rest → isHeadChar c = false

theorem not_head {c : Char} (h : isHeadChar c = false) : c = '?' ∨ c = '#' := by
  by_cases hmark : c = '?'
  · exact .inl hmark
  · right
    simpa [isHeadChar, hmark] using h

theorem splitScheme_append (head : List Char) {tail : List Char} (htail : BehindHead tail) :
    splitScheme lib (String.ofList (head ++ tail)) =
      ((splitScheme lib (String.ofList head)).1, (splitScheme lib (String.ofList head)).2 ++ String.ofList tail) := by
  rcases scheme_cases head with ⟨name, rest, rfl, hname, hchars⟩ | hnone
  · rw [List.append_assoc, List.cons_append, splitScheme_some hname hchars, splitScheme_some hname hchars,
      ← String.ofList_append]
  · rw [splitScheme_none hnone, splitScheme_none, ← String.ofList_append]
    intro name rest he hcolon
    rcases List.append_eq_append_iff.mp he with ⟨as, hname, htail'⟩ | ⟨bs, hhead, hrest⟩
    · cases as with
      | nil => exact absurd (htail _ _ htail') (by decide)
      | cons a as =>
        -- the mark is no character of a scheme
        have ha : isSchemeChar a = false := by
          rcases not_head (htail _ _ htail') with rfl | rfl <;> decide
        have hall : name.all isSchemeChar = false := by
          rw [hname]
          simp [ha]
        rw [hall, Bool.and_false]
    · cases bs with
      | nil => exact absurd (htail _ _ hrest.symm) (by decide)
      | cons b bs =>
        obtain ⟨rfl, -⟩ := List.cons.inj hrest
        exact hnone name bs hhead hcolon

theorem splitNetloc_append (l : List Char) {tail : List Char} (htail : BehindHead tail) :
    splitNetloc (String.ofList (l ++ tail)) =
      ((splitNetloc (String.ofList l)).1, (splitNetloc (String.ofList l)).2 ++ String.ofList tail) := by
  rcases netloc_cases l with ⟨netloc, rest, rfl, hnetloc, hrest⟩ | hnone
  · have hbehind : BehindNetloc (rest ++ tail) := by
      intro c rest' he
      cases rest with
      | cons d rest =>
        rw [List.cons_append] at he
        obtain ⟨rfl, -⟩ := List.cons.inj he
        exact hrest d rest rfl
      | nil =>
        rcases not_head (htail c rest' he) with rfl | rfl <;> decide
    rw [List.cons_append, List.cons_append, List.append_assoc, splitNetloc_some hnetloc hbehind, splitNetloc_some hnetloc hrest,
      String.ofList_append]
  · rw [splitNetloc_none hnone, splitNetloc_none, String.ofList_append]
    intro rest he
    -- neither mark is a slash
    match l with
    | [] => exact absurd (htail _ _ he) (by decide)
    | [c] =>
      obtain ⟨-, he⟩ := List.cons.inj he
      exact absurd (htail _ _ he) (by decide)
    | c :: d :: l =>
      simp only [List.cons_append, List.cons.injEq] at he
      obtain ⟨rfl, rfl, -⟩ := he
      exact hnone l rfl

theorem splitScheme_chars {p : Char → Prop} {l : List Char} (h : ∀ c ∈ l, p c) :
    ∀ c ∈ (splitScheme lib (String.ofList l)).2.toList, p c := by
  rcases scheme_cases l with ⟨name, rest, rfl, hname, hchars⟩ | hnone
  · rw [splitScheme_some hname hchars, String.toList_ofList]
    intro c hc
    exact h c (by simp [hc])
  · rw [splitScheme_none hnone, String.toList_ofList]
    exact h

theorem splitNetloc_chars {p : Char → Prop} {l : List Char} (h : ∀ c ∈ l, p c) :
    ∀ c ∈ (splitNetloc (String.ofList l)).2.toList, p c := by
  rcases netloc_cases l with ⟨netloc, rest, rfl, hnetloc, hrest⟩ | hnone
  · rw [splitNetloc_some hnetloc hrest, String.toList_ofList]
    intro c hc
    exact h c (by simp [hc])
  · rw [splitNetloc_none hnone, String.toList_ofList]
    exact h

/-- The path of a head has neither mark. -/
theorem path_chars {head : List Char} (h : ∀ c ∈ head, isHeadChar c = true) :
    ∀ c ∈ (splitNetloc (splitScheme lib (String.ofList head)).2).2.toList, isHeadChar c = true := by
  have hscheme : ∀ c ∈ (splitScheme lib (String.ofList head)).2.toList, isHeadChar c = true := splitScheme_chars h
  rw [← String.ofList_toList (s := (splitScheme lib (String.ofList head)).2)]
  exact splitNetloc_chars hscheme

namespace UrlParts

variable (p : UrlParts)

/-- Behind a path stand the query and the fragment. -/
theorem partition_behind {path : List Char} (hpath : ∀ c ∈ path, isHeadChar c = true) :
    (partition '#' (String.ofList (path ++ p.tail))).2.2 = String.ofList (p.fragment.getD []) ∧
      (partition '#' (String.ofList (path ++ p.tail))).1 = String.ofList (path ++ p.queryText) ∧
      (partition '?' (String.ofList (path ++ p.queryText))).1 = String.ofList path ∧
      (partition '?' (String.ofList (path ++ p.queryText))).2.2 = String.ofList (p.query.getD []) := by
  have hmark : '?' ∉ path := not_mem_of_all hpath (by decide)
  have hhash : '#' ∉ path ++ p.queryText := by
    rw [List.mem_append, not_or]
    refine ⟨not_mem_of_all hpath (by decide), ?_⟩
    cases hq : p.query with
    | none => simp [queryText, hq]
    | some q =>
      have := p.query_chars q hq
      simp [queryText, hq, this]
  have hfragment : partition '#' (String.ofList (path ++ p.tail)) =
      (String.ofList (path ++ p.queryText), p.fragment.isSome, String.ofList (p.fragment.getD [])) := by
    rw [tail, ← List.append_assoc]
    cases hf : p.fragment with
    | none =>
      simp only [fragmentText, hf, Option.map_none, Option.getD_none, List.append_nil]
      rw [partition_absent hhash]
      rfl
    | some f =>
      simp only [fragmentText, hf, Option.map_some, Option.getD_some]
      rw [partition_append hhash]
      rfl
  have hquery : partition '?' (String.ofList (path ++ p.queryText)) =
      (String.ofList path, p.query.isSome, String.ofList (p.query.getD [])) := by
    cases hq : p.query with
    | none =>
      simp only [queryText, hq, Option.map_none, Option.getD_none, List.append_nil]
      rw [partition_absent hmark]
      rfl
    | some q =>
      simp only [queryText, hq, Option.map_some, Option.getD_some]
      rw [partition_append hmark]
      rfl
  rw [hfragment, hquery]
  exact ⟨rfl, rfl, rfl, rfl⟩

/-- A head that was read, with the query and the fragment behind it. -/
def result (head : String × String × String) : SplitResult :=
  ⟨head.1, head.2.1, head.2.2, String.ofList (p.query.getD []), String.ofList (p.fragment.getD [])⟩

/-- The head is read by itself. -/
theorem urlsplit_text {l : List Char} (hl : cleaned l = p.text) :
    urlsplit lib (String.ofList l) = (splitHead lib p.head).map p.result := by
  have htail : BehindHead p.tail := p.tail_first
  have hclean : String.ofList ((l.dropWhile fun c => c.toNat ≤ 32).filter fun c => !(['\t', '\r', '\n'].contains c)) =
      String.ofList (p.head ++ p.tail) := congrArg String.ofList hl
  have hnetloc : splitNetloc ((splitScheme lib (String.ofList p.head)).2 ++ String.ofList p.tail) =
      ((splitNetloc (splitScheme lib (String.ofList p.head)).2).1,
        (splitNetloc (splitScheme lib (String.ofList p.head)).2).2 ++ String.ofList p.tail) := by
    have := splitNetloc_append (splitScheme lib (String.ofList p.head)).2.toList htail
    rwa [String.ofList_append, String.ofList_toList] at this
  have hpath : ∀ c ∈ (splitNetloc (splitScheme lib (String.ofList p.head)).2).2.toList, isHeadChar c = true :=
    path_chars p.head_chars
  obtain ⟨hfragment, hrest, hpath', hquery⟩ := p.partition_behind hpath
  rw [String.ofList_append, String.ofList_toList] at hfragment hrest
  simp only [urlsplit, String.toList_ofList, hclean, splitScheme_append p.head htail, hnetloc, hfragment, hrest, hpath', hquery,
    String.ofList_toList, splitHead]
  generalize splitNetloc (splitScheme lib (String.ofList p.head)).2 = parts
  obtain ⟨netloc, path⟩ := parts
  cases netloc with
  | none =>
    simp only [Option.isSome_none, Bool.false_eq_true, if_false]
    cases checknetloc lib ((none : Option String).getD "") <;> rfl
  | some netloc =>
    simp only [Option.isSome_some, if_true]
    cases checkBrackets lib ((some netloc).getD "") with
    | error e => rfl
    | ok _ => cases checknetloc lib ((some netloc).getD "") <;> rfl

end UrlParts

/-! ## Writing a head back -/

/-- What `urlunsplit` writes of the network location and the path. -/
def unsplitUrl (scheme netloc path : String) : String :=
  if netloc ≠ "" then "//" ++ netloc ++ (if path ≠ "" && !startsWith path "/" then "/" ++ path else path)
  else if startsWith path "//" then "//" ++ path
  else if scheme ≠ "" && usesNetloc.contains scheme && (path = "" || startsWith path "/") then "//" ++ path
  else path

/-- What it writes before the query and the fragment. -/
def unsplitHead (scheme netloc path : String) : String :=
  if scheme ≠ "" then scheme ++ ":" ++ unsplitUrl scheme netloc path else unsplitUrl scheme netloc path

theorem urlunsplit_eq (parts : SplitResult) :
    urlunsplit parts =
      (let url := unsplitHead parts.scheme parts.netloc parts.path
       let url := if parts.query ≠ "" then url ++ "?" ++ parts.query else url
       if parts.fragment ≠ "" then url ++ "#" ++ parts.fragment else url) := rfl

/-- `urlunsplit` writes a head, a query and a fragment, if it is not empty. -/
theorem urlunsplit_text {scheme netloc path query : String} {text : List Char} (fragment : Option (List Char))
    (hhead : unsplitHead scheme netloc path = String.ofList text) (hquery : query ≠ "") :
    urlunsplit ⟨scheme, netloc, path, query, String.ofList (fragment.getD [])⟩ =
      String.ofList (text ++ ('?' :: query.toList ++ ((UrlText.notEmpty fragment).map ('#' :: ·)).getD [])) := by
  have hmark : "#" = String.ofList ['#'] := rfl
  rw [urlunsplit_eq]
  simp only [hhead, if_pos hquery]
  rw [hmark, UrlText.append_notEmpty, ← String.toList_inj]
  simp

theorem startsWith_slash (l : List Char) : startsWith (String.ofList l) "/" = true ↔ ∃ rest, l = '/' :: rest := by
  have hslash : "/".toList = ['/'] := rfl
  rw [startsWith, hslash, String.toList_ofList, List.isPrefixOf_iff_prefix]
  constructor
  · intro h
    obtain ⟨rest, h⟩ := h
    exact ⟨rest, h.symm⟩
  · intro h
    obtain ⟨rest, h⟩ := h
    exact ⟨rest, h.symm⟩

theorem behindNetloc_slash (rest : List Char) : BehindNetloc ('/' :: rest) := by
  intro c rest' he
  obtain ⟨rfl, -⟩ := List.cons.inj he
  rfl

theorem slash_or_nil {path : List Char} (hpath : ∀ c ∈ path, isHeadChar c = true) (hbehind : BehindNetloc path) :
    path = [] ∨ ∃ rest, path = '/' :: rest := by
  cases path with
  | nil => exact .inl rfl
  | cons c rest =>
    have hend := hbehind c rest rfl
    have hhead := hpath c List.mem_cons_self
    simp only [endsNetloc, List.contains_eq_mem, List.mem_cons, List.not_mem_nil, or_false, decide_eq_true_eq] at hend
    rcases hend with rfl | rfl | rfl
    · exact .inr ⟨rest, rfl⟩
    · cases hhead
    · cases hhead

/-- It writes two slashes where there is a location, or where a path alone would not be read as one. -/
theorem unsplitUrl_cases (scheme : String) {netloc path : List Char} (hpath : ∀ c ∈ path, isHeadChar c = true)
    (hbehind : netloc ≠ [] → BehindNetloc path) :
    (unsplitUrl scheme (String.ofList netloc) (String.ofList path) = String.ofList ('/' :: '/' :: (netloc ++ path)) ∧
        BehindNetloc path) ∨
      (netloc = [] ∧ unsplitUrl scheme (String.ofList netloc) (String.ofList path) = String.ofList path ∧
        ∀ rest, path ≠ '/' :: '/' :: rest) := by
  have hslashes : ∀ l : List Char, "//" ++ String.ofList l = String.ofList ('/' :: '/' :: l) := by
    intro l
    rw [← String.toList_inj]
    simp
  by_cases hnetloc : netloc = []
  · subst hnetloc
    rw [unsplitUrl, if_neg (by simp)]
    by_cases hdouble : startsWith (String.ofList path) "//" = true
    · rw [if_pos hdouble]
      obtain ⟨rest, rfl⟩ := (startsWith_slashes path).mp hdouble
      exact .inl ⟨hslashes _, behindNetloc_slash _⟩
    rw [if_neg hdouble]
    by_cases huses : (scheme ≠ "" && usesNetloc.contains scheme &&
        (String.ofList path = "" || startsWith (String.ofList path) "/")) = true
    · rw [if_pos huses]
      refine .inl ⟨hslashes _, ?_⟩
      simp only [Bool.and_eq_true, Bool.or_eq_true, decide_eq_true_eq] at huses
      rcases huses.2 with hempty | hslash
      · rw [ofList_eq_empty.mp hempty]
        intro c rest he
        cases he
      · obtain ⟨rest, rfl⟩ := (startsWith_slash path).mp hslash
        exact behindNetloc_slash _
    · rw [if_neg huses]
      refine .inr ⟨rfl, rfl, fun rest he => hdouble ?_⟩
      exact (startsWith_slashes path).mpr ⟨rest, he⟩
  · rw [unsplitUrl, if_pos (by simpa using hnetloc), if_neg]
    · left
      refine ⟨?_, hbehind hnetloc⟩
      rw [← String.toList_inj]
      simp
    · rcases slash_or_nil hpath (hbehind hnetloc) with rfl | ⟨rest, rfl⟩
      · simp
      · rw [(startsWith_slash _).mpr ⟨rest, rfl⟩]
        simp

/-- A head that can be split: its scheme, and the rest with its location. -/
structure HeadSplits (lib : UrlLib) (head : List Char) (scheme netloc path : String) (url : String) (location : Option String) : Prop where
  scheme_eq : splitScheme lib (String.ofList head) = (scheme, url)
  netloc_eq : splitNetloc url = (location, path)
  location_eq : location.getD "" = netloc
  brackets : location.isSome = true → checkBrackets lib netloc = .ok ()
  checked : checknetloc lib netloc = .ok ()

theorem splits_of_ok {head : List Char} {scheme netloc path : String} (h : splitHead lib head = .ok (scheme, netloc, path)) :
    ∃ url location, HeadSplits lib head scheme netloc path url location := by
  unfold splitHead at h
  rcases hscheme : splitScheme lib (String.ofList head) with ⟨scheme', url⟩
  rcases hlocation : splitNetloc url with ⟨location, path'⟩
  rw [hscheme] at h
  simp only [hlocation] at h
  rcases location with _ | n
  · cases hchecked : checknetloc lib ((none : Option String).getD "") with
    | error e =>
      rw [hchecked] at h
      cases h
    | ok _ =>
      rw [hchecked] at h
      obtain ⟨rfl, rfl, rfl⟩ : scheme' = scheme ∧ "" = netloc ∧ path' = path := by
        injection h with h
        injection h with hs h
        injection h with hn hp
        exact ⟨hs, hn, hp⟩
      exact ⟨url, none, hscheme, hlocation, rfl, (fun h => nomatch h), hchecked⟩
  · simp only [Option.isSome_some, if_true, Option.getD_some] at h
    cases hbrackets : checkBrackets lib n with
    | error e =>
      rw [hbrackets] at h
      cases h
    | ok _ =>
      rw [hbrackets] at h
      cases hchecked : checknetloc lib n with
      | error e =>
        rw [hchecked] at h
        cases h
      | ok _ =>
        rw [hchecked] at h
        obtain ⟨rfl, rfl, rfl⟩ : scheme' = scheme ∧ n = netloc ∧ path' = path := by
          injection h with h
          injection h with hs h
          injection h with hn hp
          exact ⟨hs, hn, hp⟩
        exact ⟨url, some n, hscheme, hlocation, rfl, fun _ => hbrackets, hchecked⟩

theorem HeadSplits.ok {head : List Char} {scheme netloc path url : String} {location : Option String}
    (h : HeadSplits lib head scheme netloc path url location) : splitHead lib head = .ok (scheme, netloc, path) := by
  have hscheme := h.scheme_eq
  have hlocation := h.netloc_eq
  have hchecked := h.checked
  have hbrackets := h.brackets
  obtain rfl := h.location_eq
  unfold splitHead
  rw [hscheme]
  simp only [hlocation]
  rcases location with _ | n
  · simp only [Option.isSome_none, Bool.false_eq_true, if_false, hchecked]
    rfl
  · simp only [Option.isSome_some, if_true, hbrackets rfl, hchecked]
    rfl

/-- The location and the path of a text are read again from what is written of them. -/
structure Rewritten (l : List Char) (scheme : String) (location : Option String) (path : String) (text : List Char)
    (location' : Option String) : Prop where
  written : unsplitUrl scheme (location.getD "") path = String.ofList text
  read : splitNetloc (String.ofList text) = (location', path)
  same : location' = location ∨ (location.getD "" = "" ∧ location'.getD "" = "")
  chars : ∀ p : Char → Prop, p '/' → (∀ c ∈ l, p c) → ∀ c ∈ text, p c
  first : text = l ∨ text = [] ∨ ∃ rest, text = '/' :: rest

theorem unsplitUrl_read {l : List Char} (hl : ∀ c ∈ l, isHeadChar c = true) (scheme : String) {location : Option String}
    {path : String} (h : splitNetloc (String.ofList l) = (location, path)) :
    ∃ text location', Rewritten l scheme location path text location' := by
  rcases netloc_cases l with ⟨netloc, rest, rfl, hnetloc, hrest⟩ | hnone
  · rw [splitNetloc_some hnetloc hrest] at h
    obtain ⟨rfl, rfl⟩ := Prod.mk.inj h
    have hpath : ∀ c ∈ rest, isHeadChar c = true := fun c hc => hl c (by simp [hc])
    rcases @unsplitUrl_cases scheme netloc rest hpath fun _ => hrest with ⟨hwritten, -⟩ | ⟨rfl, hwritten, hsingle⟩
    · exact ⟨_, _, hwritten, splitNetloc_some hnetloc hrest, .inl rfl, fun p _ hp => hp, .inl rfl⟩
    · refine ⟨_, _, hwritten, splitNetloc_none hsingle, .inr ⟨rfl, rfl⟩, fun p _ hp c hc => hp c (by simp [hc]), ?_⟩
      exact .inr (slash_or_nil hpath hrest)
  · rw [splitNetloc_none hnone] at h
    obtain ⟨rfl, rfl⟩ := Prod.mk.inj h
    rcases @unsplitUrl_cases scheme [] l hl fun h => absurd rfl h with ⟨hwritten, hbehind⟩ | ⟨-, hwritten, -⟩
    · refine ⟨_, _, hwritten, splitNetloc_some (fun c hc => nomatch hc) hbehind, .inr ⟨rfl, rfl⟩, fun p hslash hp c hc => ?_,
        .inr (.inr ⟨_, rfl⟩)⟩
      simp only [List.nil_append, List.mem_cons] at hc
      rcases hc with rfl | rfl | hc
      · exact hslash
      · exact hslash
      · exact hp c hc
    · exact ⟨_, _, hwritten, splitNetloc_none hnone, .inl rfl, fun p _ hp => hp, .inl rfl⟩

/-- A head is read again from what is written of it: its characters are old ones, and where
    it begins with another it begins with a letter or a slash. -/
structure HeadText (lib : UrlLib) (head : List Char) (scheme netloc path : String) (text : List Char) : Prop where
  written : unsplitHead scheme netloc path = String.ofList text
  read : splitHead lib text = .ok (scheme, netloc, path)
  chars : ∀ p : Char → Prop, p '/' → p ':' → (∀ c, isSchemeChar c = true → p c) → (∀ c ∈ head, p c) → ∀ c ∈ text, p c
  first : text = head ∨ ∀ c rest, text = c :: rest → c.isAlpha = true ∨ c = '/'

theorem Rewritten.splits {l text : List Char} {scheme netloc path url : String} {location location' : Option String} {head head' : List Char}
    (h : Rewritten l scheme location path text location') (hsplits : HeadSplits lib head scheme netloc path url location)
    (hscheme : splitScheme lib (String.ofList head') = (scheme, String.ofList text)) :
    HeadSplits lib head' scheme netloc path (String.ofList text) location' := by
  obtain rfl := hsplits.location_eq
  rcases h.same with rfl | ⟨hempty, hempty'⟩
  · exact ⟨hscheme, h.read, rfl, hsplits.brackets, hsplits.checked⟩
  · refine ⟨hscheme, h.read, hempty'.trans hempty.symm, fun _ => ?_, hsplits.checked⟩
    rw [hempty]
    rfl

theorem splitHead_unsplitHead (hlower : LowersAscii lib) {head : List Char} (hhead : ∀ c ∈ head, isHeadChar c = true)
    {scheme netloc path : String} (h : splitHead lib head = .ok (scheme, netloc, path)) :
    ∃ text, HeadText lib head scheme netloc path text := by
  obtain ⟨url, location, hsplits⟩ := splits_of_ok h
  have hscheme := hsplits.scheme_eq
  have hlocation := hsplits.location_eq
  rcases scheme_cases head with ⟨name, rest, rfl, hname, hchars⟩ | hnone
  · have hascii : ∀ c ∈ name, c.toNat < 128 := fun c hc => UrlText.isAscii_of_isSchemeChar (hchars c hc)
    rw [splitScheme_some hname hchars, hlower _ hascii] at hscheme
    obtain ⟨rfl, rfl⟩ := Prod.mk.inj hscheme
    have hrest : ∀ c ∈ rest, isHeadChar c = true := fun c hc => hhead c (by simp [hc])
    obtain ⟨text, location', hrewritten⟩ := unsplitUrl_read hrest (String.ofList (name.map Char.toLower)) hsplits.netloc_eq
    obtain ⟨hname', hchars'⟩ := UrlText.lowered_scheme hname hchars
    have hagain : lib.lower (String.ofList (name.map Char.toLower)) = String.ofList (name.map Char.toLower) := by
      rw [hlower _ fun c hc => UrlText.isAscii_of_isSchemeChar (hchars' c hc), List.map_map]
      congr 1
      apply List.map_congr_left
      intro c hc
      exact toLower_toLower (hascii c hc)
    obtain ⟨first, others, hlowered, hfirst⟩ := UrlText.isAlpha_of_head hname'
    refine ⟨name.map Char.toLower ++ ':' :: text, ?_, ?_, ?_, ?_⟩
    · have hne : String.ofList (name.map Char.toLower) ≠ "" := by
        intro he
        have hnil := ofList_eq_empty.mp he
        rw [hlowered] at hnil
        cases hnil
      rw [unsplitHead, if_pos hne, ← hlocation, hrewritten.written, ← String.toList_inj]
      simp
    · exact (hrewritten.splits hsplits (by rw [splitScheme_some hname' hchars', hagain])).ok
    · intro p hslash hcolon hpscheme hp c hc
      simp only [List.mem_append, List.mem_cons] at hc
      rcases hc with hc | rfl | hc
      · exact hpscheme c (hchars' c hc)
      · exact hcolon
      · exact hrewritten.chars p hslash (fun c hc => hp c (by simp [hc])) c hc
    · right
      intro c rest' he
      rw [hlowered, List.cons_append] at he
      obtain ⟨rfl, -⟩ := List.cons.inj he
      exact .inl hfirst
  · rw [splitScheme_none hnone] at hscheme
    obtain ⟨rfl, rfl⟩ := Prod.mk.inj hscheme
    obtain ⟨text, location', hrewritten⟩ := unsplitUrl_read hhead "" hsplits.netloc_eq
    have hslash : ∀ rest : List Char, splitScheme lib (String.ofList ('/' :: rest)) = ("", String.ofList ('/' :: rest)) := by
      intro rest
      apply splitScheme_none
      intro name rest' he _
      cases name with
      | nil => rfl
      | cons c name =>
        obtain ⟨rfl, -⟩ := List.cons.inj he
        rfl
    have hnone' : splitScheme lib (String.ofList text) = ("", String.ofList text) := by
      rcases hrewritten.first with rfl | rfl | ⟨rest, rfl⟩
      · exact splitScheme_none hnone
      · rfl
      · exact hslash rest
    refine ⟨text, ?_, (hrewritten.splits hsplits hnone').ok, fun p hslash _ _ hp => hrewritten.chars p hslash hp, ?_⟩
    · rw [unsplitHead, if_neg (by simp), ← hlocation, hrewritten.written]
    · rcases hrewritten.first with rfl | rfl | ⟨rest, rfl⟩
      · exact .inl rfl
      · right
        intro c rest he
        cases he
      · right
        intro c rest' he
        obtain ⟨rfl, -⟩ := List.cons.inj he
        exact .inr rfl

end

end Imghost.Web
