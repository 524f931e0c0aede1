/-
  Imghost.Telemetry.SanitizeUrl — the URLs of a telemetry record (`telemetry/redaction.py`).

  `_sanitize_url` splits the URL, without the whitespace around it, and replaces the values
  of the query parameters that carry tokens. A URL that cannot be split, or names no such
  parameter, is left as it is.

  What is proved:
    • URLs that differ in such values only come to the same, unless they cannot be split:
      then the tokens stay;
    • sanitizing twice is sanitizing once, unless the URL begins with whitespace behind
      control characters: `urlsplit` drops the ones and `strip` the other, but not in the
      same pass.
-/

import Imghost.Web.Query
import Imghost.Web.UrlParts

namespace Imghost.Telemetry

open Imghost.Data Imghost.Model Imghost.Web

/-- `_REDACTED`. -/
def redacted : String := "[REDACTED]"

/-- `_SECRET_QUERY_KEYS`. -/
def secretQueryKeys : List String := ["token", "delete_token", "reauth_token", "delete_reauth_token"]

variable (lib : UrlLib)

def isSecretQueryKey (key : String) : Bool := secretQueryKeys.contains (lib.lower key)

def redactPair (item : String × String) : String × String :=
  if isSecretQueryKey lib item.1 then (item.1, redacted) else item

/-- `_sanitize_url`. -/
def sanitizeUrl (value : String) : String :=
  let candidate := strip value
  if candidate = "" then value
  else
    match urlsplit lib candidate with
    | .error _ => value
    | .ok parsed =>
      if parsed.query = "" then value
      else
        let items := parseQsl parsed.query
        if items.any (isSecretQueryKey lib ·.1) then
          urlunsplit { parsed with query := urlencode (items.map (redactPair lib)) }
        else value

/-! ## The parts that are read -/

/-- The parts of a text, as `_sanitize_url` has it split. -/
def keptParts (url : String) : UrlParts := UrlParts.ofText (cleaned (strip url).toList)

/-- The parameters it reads. -/
def paramsOf (url : String) : List (String × String) := parseQsl (String.ofList ((keptParts url).query.getD []))

/-- A parameter of the URL carries a token. -/
def namesSecret (url : String) : Bool := (paramsOf url).any (isSecretQueryKey lib ·.1)

def canSplit (url : String) : Bool := (urlsplit lib (strip url)).isOk

section

variable {lib}

theorem urlsplit_strip (url : String) :
    urlsplit lib (strip url) = (splitHead lib (keptParts url).head).map (keptParts url).result := by
  rw [← String.ofList_toList (s := strip url)]
  apply UrlParts.urlsplit_text
  rw [keptParts, UrlParts.text_ofText]

theorem canSplit_iff (url : String) : canSplit lib url = true ↔ ∃ head, splitHead lib (keptParts url).head = .ok head := by
  rw [canSplit, urlsplit_strip]
  cases splitHead lib (keptParts url).head with
  | error e => simp [Except.map, Except.isOk, Except.toBool]
  | ok head => simp [Except.map, Except.isOk, Except.toBool]

/-- What is written for a URL that carries a token. -/
def sanitized (lib : UrlLib) (url : String) (head : String × String × String) : String :=
  urlunsplit { (keptParts url).result head with query := urlencode ((paramsOf url).map (redactPair lib)) }

theorem sanitized_eq (url : String) (head : String × String × String) : sanitized lib url head =
    urlunsplit ⟨head.1, head.2.1, head.2.2, urlencode ((paramsOf url).map (redactPair lib)),
      String.ofList ((keptParts url).fragment.getD [])⟩ := rfl

/-- A URL that cannot be split stays, and so does one without a token. -/
theorem sanitizeUrl_eq (url : String) :
    sanitizeUrl lib url =
      match splitHead lib (keptParts url).head with
      | .error _ => url
      | .ok head => if namesSecret lib url then sanitized lib url head else url := by
  have hnone : (keptParts url).query.getD [] = [] → namesSecret lib url = false := by
    intro hquery
    rw [namesSecret, paramsOf, hquery]
    rfl
  unfold sanitizeUrl
  by_cases hempty : strip url = ""
  · have hparts : (keptParts url).query.getD [] = [] := by
      rw [keptParts, hempty]
      rfl
    rw [if_pos hempty, hnone hparts]
    split <;> rfl
  · rw [if_neg hempty, urlsplit_strip]
    cases hhead : splitHead lib (keptParts url).head with
    | error e => rfl
    | ok head =>
      simp only [Except.map]
      by_cases hquery : (keptParts url).query.getD [] = []
      · rw [if_pos (by simp [UrlParts.result, hquery]), hnone hquery]
        rfl
      · rw [if_neg (by simpa [UrlParts.result] using hquery)]
        rfl

end

/-! ## URLs that differ in their tokens -/

/-- A name that `_sanitize_url` takes for one of a token. -/
def isSecretName (name : List Char) : Bool := isSecretQueryKey lib (String.ofList (unquotePlus (name.filter (!isLineBreak ·))))

/-- Parts of a query that are the same, but for a token. -/
inductive SamePair : List Char → List Char → Prop
  | same (pair : List Char) : SamePair pair pair
  | token (name value value' : List Char) (hname : '=' ∉ name) (hsecret : isSecretName lib name = true) :
      SamePair (name ++ '=' :: value) (name ++ '=' :: value')

abbrev SameQuery (query query' : List Char) : Prop := List.Forall₂ (SamePair lib) (query.splitOn '&') (query'.splitOn '&')

/-- URLs that are the same, but for the values of query parameters that carry tokens. -/
structure SameUrl (url url' : String) : Prop where
  head : (UrlParts.ofText url.toList).head = (UrlParts.ofText url'.toList).head
  query : Option.Rel (SameQuery lib) (UrlParts.ofText url.toList).query (UrlParts.ofText url'.toList).query
  fragment : (UrlParts.ofText url.toList).fragment = (UrlParts.ofText url'.toList).fragment

section

variable {lib}

theorem SamePair.refl (pairs : List (List Char)) : List.Forall₂ (SamePair lib) pairs pairs :=
  List.forall₂_same.mpr fun pair _ => .same pair

theorem SameUrl.refl (url : String) : SameUrl lib url url := by
  refine ⟨rfl, ?_, rfl⟩
  cases (UrlParts.ofText url.toList).query with
  | none => exact .none
  | some q => exact .some (SamePair.refl _)

/-! ### What is kept of them -/

theorem cleaned_mark (xs ys : List Char) : cleaned (xs ++ '?' :: ys) = cleaned xs ++ '?' :: ys.filter (!isLineBreak ·) := by
  have hmark : isLineBreak '?' = false := rfl
  rw [cleaned, dropWhile_stop (by decide), List.filter_append, List.filter_cons_of_pos (by simp [hmark]), cleaned]

theorem mem_cleaned {c : Char} {l : List Char} (h : c ∈ cleaned l) : c ∈ l :=
  (List.dropWhile_suffix _).mem (List.mem_of_mem_filter h)

/-- The query of a text that is kept: as it is, but for line breaks and for whitespace at the end. -/
def keptQuery (query : List Char) (fragment : Option (List Char)) : List Char :=
  (if fragment.isSome then query else query.rdropWhile isSpace).filter (!isLineBreak ·)

def keptOf (p : UrlParts) (query : List Char) (hquery : '#' ∉ query) : UrlParts where
  head := cleaned (p.head.dropWhile isSpace)
  query := some (keptQuery query p.fragment)
  fragment := p.fragment.map fun f => (f.rdropWhile isSpace).filter (!isLineBreak ·)
  head_chars := by
    intro c hc
    exact p.head_chars c ((List.dropWhile_suffix _).mem (mem_cleaned hc))
  query_chars := by
    intro q hq hmem
    obtain rfl := Option.some.inj hq
    have hmem := List.mem_of_mem_filter hmem
    split at hmem
    · exact hquery hmem
    · exact hquery ((List.rdropWhile_prefix _ _).mem hmem)

theorem keptParts_eq {url : String} {query : List Char} (hquery : (UrlParts.ofText url.toList).query = some query) :
    keptParts url = keptOf (UrlParts.ofText url.toList) query ((UrlParts.ofText url.toList).query_chars query hquery) := by
  have htext := UrlParts.text_ofText url.toList
  generalize UrlParts.ofText url.toList = p at hquery htext
  have hstrip : (strip url).toList = (url.toList.dropWhile isSpace).rdropWhile isSpace := String.toList_ofList
  have hspace : isSpace '?' = false ∧ isSpace '#' = false := by decide
  rw [keptParts, hstrip, ← htext]
  rw [← UrlParts.ofText_text (keptOf p query (p.query_chars query hquery))]
  congr 1
  rw [UrlParts.text, UrlParts.tail, UrlParts.queryText, hquery, Option.map_some, Option.getD_some, List.cons_append,
    dropWhile_stop hspace.1, rdropWhile_stop hspace.1, cleaned_mark]
  cases hfragment : p.fragment with
  | none => simp [UrlParts.text, UrlParts.tail, UrlParts.queryText, UrlParts.fragmentText, keptOf, keptQuery, hfragment]
  | some f =>
    have hbreak : isLineBreak '#' = false := rfl
    simp only [UrlParts.fragmentText, hfragment, Option.map_some, Option.getD_some]
    rw [rdropWhile_stop hspace.2]
    simp [UrlParts.text, UrlParts.tail, UrlParts.queryText, UrlParts.fragmentText, keptOf, keptQuery, hfragment, hbreak]

/-! ### They come to the same -/

/-- Pairs that name the same token, or are the same. -/
inductive ReadSame (lib : UrlLib) : List Char → List Char → Prop
  | same (pair : List Char) : ReadSame lib pair pair
  | token (name value value' : List Char) (hname : '=' ∉ name)
      (hsecret : isSecretQueryKey lib (String.ofList (unquotePlus name)) = true) : ReadSame lib (name ++ '=' :: value) (name ++ '=' :: value')

/-- Whitespace behind the last part. -/
def trimLast : List (List Char) → List (List Char)
  | [] => []
  | [pair] => [pair.rdropWhile isSpace]
  | pair :: pairs => pair :: trimLast pairs

theorem trimLast_cons (pair : List Char) {pairs : List (List Char)} (h : pairs ≠ []) :
    trimLast (pair :: pairs) = pair :: trimLast pairs := by
  cases pairs with
  | nil => exact absurd rfl h
  | cons pair' pairs => rfl

theorem splitOn_rdropWhile (query : List Char) : (query.rdropWhile isSpace).splitOn '&' = trimLast (query.splitOn '&') := by
  by_cases h : '&' ∈ query
  · obtain ⟨xs, ys, hxs, rfl, -⟩ := cut_cases h
    have ih := splitOn_rdropWhile ys
    rw [rdropWhile_stop (by decide), List.splitOn_append_cons_self_of_not_mem hxs, List.splitOn_append_cons_self_of_not_mem hxs,
      trimLast_cons _ (List.splitOn_ne_nil _ _), ih]
  · have h' : '&' ∉ query.rdropWhile isSpace := fun hmem => h ((List.rdropWhile_prefix _ _).mem hmem)
    rw [List.splitOn_eq_singleton h, List.splitOn_eq_singleton h']
    rfl
termination_by query.length
decreasing_by
  subst_vars
  simp only [List.length_append, List.length_cons]
  omega

theorem splitOn_filter {p : Char → Bool} (hp : p '&' = true) (query : List Char) :
    (query.filter p).splitOn '&' = (query.splitOn '&').map (List.filter p) := by
  induction query with
  | nil => rfl
  | cons c query ih =>
    rw [List.splitOn_cons_eq_if_modifyHead]
    by_cases hc : c = '&'
    · subst hc
      rw [List.filter_cons_of_pos hp, List.splitOn_cons_eq_if_modifyHead, ih]
      simp
    · have hne : (c == '&') = false := by simpa using hc
      rw [hne]
      rcases hpairs : query.splitOn '&' with _ | ⟨first, rest⟩
      · exact absurd hpairs (List.splitOn_ne_nil _ _)
      rw [hpairs] at ih
      by_cases hkeep : p c = true
      · rw [List.filter_cons_of_pos hkeep, List.splitOn_cons_eq_if_modifyHead, hne, ih]
        simp [hkeep]
      · rw [List.filter_cons_of_neg hkeep, ih]
        simp [hkeep]

theorem splitOn_keptQuery (query : List Char) (fragment : Option (List Char)) :
    (keptQuery query fragment).splitOn '&' =
      ((if fragment.isSome then query else query.rdropWhile isSpace).splitOn '&').map (List.filter (!isLineBreak ·)) :=
  splitOn_filter rfl _

theorem SamePair.trimLast {pairs pairs' : List (List Char)} (h : List.Forall₂ (SamePair lib) pairs pairs') :
    List.Forall₂ (SamePair lib) (trimLast pairs) (trimLast pairs') := by
  induction h with
  | nil => exact .nil
  | @cons pair pair' pairs pairs' hpair hpairs ih =>
    cases hpairs with
    | nil =>
      refine .cons ?_ .nil
      cases hpair with
      | same => exact .same _
      | token name value value' hname hsecret =>
        rw [rdropWhile_stop (by decide), rdropWhile_stop (by decide)]
        exact .token name _ _ hname hsecret
    | cons hpair' hpairs => exact .cons hpair ih

theorem SamePair.filter {pair pair' : List Char} (h : SamePair lib pair pair') :
    ReadSame lib (pair.filter (!isLineBreak ·)) (pair'.filter (!isLineBreak ·)) := by
  cases h with
  | same => exact .same _
  | token name value value' hname hsecret =>
    have hbreak : isLineBreak '=' = false := rfl
    rw [List.filter_append, List.filter_append, List.filter_cons_of_pos (by simp [hbreak]),
      List.filter_cons_of_pos (by simp [hbreak])]
    exact .token _ _ _ (fun hmem => hname (List.mem_of_mem_filter hmem)) hsecret

/-- What is kept of two queries names the same tokens. -/
theorem keptQuery_same {query query' : List Char} (h : SameQuery lib query query') (fragment : Option (List Char)) :
    List.Forall₂ (ReadSame lib) ((keptQuery query fragment).splitOn '&') ((keptQuery query' fragment).splitOn '&') := by
  rw [splitOn_keptQuery, splitOn_keptQuery]
  have hkept : List.Forall₂ (SamePair lib) ((if fragment.isSome then query else query.rdropWhile isSpace).splitOn '&')
      ((if fragment.isSome then query' else query'.rdropWhile isSpace).splitOn '&') := by
    split
    · exact h
    · rw [splitOn_rdropWhile, splitOn_rdropWhile]
      exact SamePair.trimLast h
  rw [List.forall₂_map_left_iff, List.forall₂_map_right_iff]
  exact hkept.imp fun _ _ hpair => hpair.filter

/-- So what is read of them is redacted to the same. -/
theorem redact_same {pairs pairs' : List (List Char)} (h : List.Forall₂ (ReadSame lib) pairs pairs') :
    ((pairs.filter (· ≠ [])).map parsePair).map (redactPair lib) = ((pairs'.filter (· ≠ [])).map parsePair).map (redactPair lib) ∧
      ((pairs.filter (· ≠ [])).map parsePair).any (isSecretQueryKey lib ·.1) =
        ((pairs'.filter (· ≠ [])).map parsePair).any (isSecretQueryKey lib ·.1) := by
  induction h with
  | nil => exact ⟨rfl, rfl⟩
  | @cons pair pair' pairs pairs' hpair hpairs ih =>
    cases hpair with
    | same =>
      by_cases hne : pair = []
      · simp only [hne, ne_eq, not_true_eq_false, decide_false, Bool.false_eq_true, not_false_eq_true, List.filter_cons_of_neg]
        exact ih
      · rw [List.filter_cons_of_pos (by simpa using hne), List.filter_cons_of_pos (by simpa using hne)]
        simp only [List.map_cons, List.any_cons, ih.1, ih.2, and_self]
    | token name value value' hname hsecret =>
      have hread : ∀ v : List Char, parsePair (name ++ '=' :: v) =
          (String.ofList (unquotePlus name), String.ofList (unquotePlus v)) := by
        intro v
        rw [parsePair, cut_append hname]
      rw [List.filter_cons_of_pos (by simp), List.filter_cons_of_pos (by simp)]
      simp only [List.map_cons, List.any_cons, hread, redactPair, hsecret, if_true, Bool.true_or, and_true, ih.1]

end

/-! ### Tokens -/

/-- A part of a query that carries a token. -/
def isToken (pair : List Char) : Bool := pair.contains '=' && isSecretName lib (cut '=' pair).1

def carriesToken (url : String) : Bool := (UrlParts.ofText url.toList).query.any fun query => (query.splitOn '&').any (isToken lib)

section

variable {lib}

theorem isToken_iff {pair : List Char} :
    isToken lib pair = true ↔ ∃ name value, pair = name ++ '=' :: value ∧ '=' ∉ name ∧ isSecretName lib name = true := by
  constructor
  · intro h
    obtain ⟨hmem, hsecret⟩ := Bool.and_eq_true_iff.mp h
    obtain ⟨name, value, hname, rfl, hcut⟩ := cut_cases (by simpa using hmem : '=' ∈ pair)
    rw [hcut] at hsecret
    exact ⟨name, value, rfl, hname, hsecret⟩
  · intro h
    obtain ⟨name, value, rfl, hname, hsecret⟩ := h
    simp [isToken, cut_append hname, hsecret]

theorem token_trimLast {pairs : List (List Char)} (h : ∃ pair ∈ pairs, isToken lib pair = true) :
    ∃ pair ∈ trimLast pairs, isToken lib pair = true := by
  induction pairs with
  | nil => exact h
  | cons pair pairs ih =>
    obtain ⟨token, hmem, htoken⟩ := h
    by_cases hpairs : pairs = []
    · subst hpairs
      obtain rfl := List.mem_singleton.mp hmem
      obtain ⟨name, value, rfl, hname, hsecret⟩ := isToken_iff.mp htoken
      refine ⟨_, List.mem_singleton.mpr rfl, ?_⟩
      rw [rdropWhile_stop (by decide)]
      exact isToken_iff.mpr ⟨name, _, rfl, hname, hsecret⟩
    · rw [trimLast_cons _ hpairs]
      rcases List.mem_cons.mp hmem with rfl | hmem
      · exact ⟨token, List.mem_cons_self, htoken⟩
      · obtain ⟨token', hmem', htoken'⟩ := ih ⟨token, hmem, htoken⟩
        exact ⟨token', List.mem_cons_of_mem _ hmem', htoken'⟩

theorem carriesToken_iff {url : String} : carriesToken lib url = true ↔
    ∃ query, (UrlParts.ofText url.toList).query = some query ∧ ∃ pair ∈ query.splitOn '&', isToken lib pair = true := by
  simp only [carriesToken, Option.any_eq_true, List.any_eq_true]

/-- A token is read as one. -/
theorem namesSecret_of_carriesToken {url : String} (h : carriesToken lib url = true) : namesSecret lib url = true := by
  obtain ⟨query, hquery, htoken⟩ := carriesToken_iff.mp h
  have hbreak : isLineBreak '=' = false := rfl
  obtain ⟨pair, hmem, hpair⟩ : ∃ pair ∈ (if (UrlParts.ofText url.toList).fragment.isSome then query
      else query.rdropWhile isSpace).splitOn '&', isToken lib pair = true := by
    split
    · exact htoken
    · rw [splitOn_rdropWhile]
      exact token_trimLast htoken
  obtain ⟨name, value, rfl, hname, hsecret⟩ := isToken_iff.mp hpair
  rw [namesSecret, paramsOf, keptParts_eq hquery, parseQsl, String.toList_ofList, List.any_eq_true]
  simp only [keptOf, Option.getD_some, splitOn_keptQuery]
  refine ⟨parsePair ((name ++ '=' :: value).filter (!isLineBreak ·)), List.mem_map_of_mem (List.mem_filter.mpr ⟨?_, ?_⟩), ?_⟩
  · exact List.mem_map_of_mem hmem
  · simp [hbreak]
  · rw [List.filter_append, List.filter_cons_of_pos (by simp [hbreak]), parsePair,
      cut_append fun hmem => hname (List.mem_of_mem_filter hmem)]
    exact hsecret

theorem text_inj {url url' : String} (h : UrlParts.ofText url.toList = UrlParts.ofText url'.toList) : url = url' := by
  rw [← String.toList_inj, ← UrlParts.text_ofText url.toList, h, UrlParts.text_ofText]

/-- Without a token there is no difference. -/
theorem eq_of_no_token {url url' : String} (h : SameUrl lib url url') (hnone : carriesToken lib url = false) : url = url' := by
  have hquery : (UrlParts.ofText url.toList).query = (UrlParts.ofText url'.toList).query := by
    have hrel := h.query
    rcases hq : (UrlParts.ofText url.toList).query with _ | query
    · rw [hq] at hrel
      cases hrel' : (UrlParts.ofText url'.toList).query with
      | none => rfl
      | some query' =>
        rw [hrel'] at hrel
        cases hrel
    · rcases hq' : (UrlParts.ofText url'.toList).query with _ | query'
      · rw [hq, hq'] at hrel
        cases hrel
      rw [hq, hq'] at hrel
      obtain hsame : SameQuery lib query query' := by cases hrel; assumption
      have hplain : ∀ pair ∈ query.splitOn '&', isToken lib pair = false := by
        intro pair hpair
        rw [← Bool.not_eq_true]
        intro htoken
        rw [carriesToken_iff.mpr ⟨query, hq, pair, hpair, htoken⟩] at hnone
        cases hnone
      have hpairs : ∀ {pairs pairs' : List (List Char)}, List.Forall₂ (SamePair lib) pairs pairs' →
          (∀ pair ∈ pairs, isToken lib pair = false) → pairs = pairs' := by
        intro pairs pairs' hall
        induction hall with
        | nil => exact fun _ => rfl
        | @cons pair pair' pairs pairs' hpair _ ih =>
          intro hplain
          rw [ih fun pair hmem => hplain pair (List.mem_cons_of_mem _ hmem)]
          cases hpair with
          | same => rfl
          | token name value value' hname hsecret =>
            have := hplain _ List.mem_cons_self
            rw [isToken_iff.mpr ⟨name, value, rfl, hname, hsecret⟩] at this
            cases this
      rw [← @List.intercalate_splitOn _ query _ _ '&', hpairs hsame hplain, List.intercalate_splitOn]
  exact text_inj (UrlParts.ext h.head hquery h.fragment)

/-- Another token may stand in its place. -/
theorem exists_other {url : String} (h : carriesToken lib url = true) : ∃ url', SameUrl lib url url' ∧ url' ≠ url := by
  obtain ⟨query, hquery, pair, hmem, hpair⟩ := carriesToken_iff.mp h
  obtain ⟨name, value, rfl, hname, hsecret⟩ := isToken_iff.mp hpair
  obtain ⟨before, after, hpairs⟩ := List.append_of_mem hmem
  let pairs' := before ++ (name ++ '=' :: (value ++ ['x'])) :: after
  have hchars : ∀ pair' ∈ pairs', ∀ c ∈ pair', (c ∈ query ∧ c ≠ '&') ∨ c = 'x' := by
    intro pair' hpair' c hc
    have hold : ∀ pair ∈ query.splitOn '&', c ∈ pair → (c ∈ query ∧ c ≠ '&') ∨ c = 'x' := fun pair hmem hc =>
      .inl (mem_splitOn hmem c hc)
    rw [hpairs] at hold
    rcases List.mem_append.mp hpair' with hbefore | hafter
    · exact hold pair' (List.mem_append_left _ hbefore) hc
    · rcases List.mem_cons.mp hafter with rfl | hafter
      · by_cases hx : c = 'x'
        · exact .inr hx
        · apply hold _ (List.mem_append_right _ List.mem_cons_self)
          simpa [hx] using hc
      · exact hold pair' (List.mem_append_right _ (List.mem_cons_of_mem _ hafter)) hc
  have hsplit : (['&'].intercalate pairs').splitOn '&' = pairs' := by
    apply List.splitOn_intercalate
    · intro pair' hpair' hamp
      rcases hchars pair' hpair' '&' hamp with h | h
      · exact h.2 rfl
      · exact absurd h (by decide)
    · simp [pairs']
  have hhash : '#' ∉ ['&'].intercalate pairs' := by
    intro hmem'
    rcases mem_intercalate hmem' with h | ⟨pair', hpair', hc⟩
    · exact absurd h (by decide)
    · rcases hchars pair' hpair' '#' hc with h | h
      · exact (UrlParts.ofText url.toList).query_chars query hquery h.1
      · exact absurd h (by decide)
  have hplain : ∀ q, some (['&'].intercalate pairs') = some q → '#' ∉ q := by
    intro q hq
    obtain rfl := Option.some.inj hq
    exact hhash
  let p' : UrlParts := ⟨(UrlParts.ofText url.toList).head, some (['&'].intercalate pairs'), (UrlParts.ofText url.toList).fragment,
    (UrlParts.ofText url.toList).head_chars, hplain⟩
  have hparts : UrlParts.ofText (String.ofList p'.text).toList = p' := by rw [String.toList_ofList, UrlParts.ofText_text]
  refine ⟨String.ofList p'.text, ⟨?_, ?_, ?_⟩, ?_⟩
  · rw [hparts]
  · rw [hparts, hquery]
    refine .some ?_
    rw [SameQuery, hsplit, hpairs]
    exact List.rel_append (SamePair.refl before) (.cons (.token name _ _ hname hsecret) (SamePair.refl after))
  · rw [hparts]
  · intro he
    rw [← he, hparts] at hquery
    have hsame : ['&'].intercalate pairs' = query := Option.some.inj hquery
    rw [← hsame, hsplit] at hpairs
    have hlength := congrArg List.length (List.cons.inj (List.append_cancel_left hpairs)).1
    simp at hlength

/-- What is kept of two such URLs. -/
structure KeptSame (lib : UrlLib) (url url' : String) : Prop where
  head : (keptParts url).head = (keptParts url').head
  fragment : (keptParts url).fragment = (keptParts url').fragment
  params : (paramsOf url).map (redactPair lib) = (paramsOf url').map (redactPair lib)
  names : namesSecret lib url = namesSecret lib url'

theorem SameUrl.kept {url url' : String} (h : SameUrl lib url url') (htoken : carriesToken lib url = true) :
    KeptSame lib url url' := by
  obtain ⟨query, hquery, -⟩ := carriesToken_iff.mp htoken
  have hrel := h.query
  rw [hquery] at hrel
  rcases hquery' : (UrlParts.ofText url'.toList).query with _ | query'
  · rw [hquery'] at hrel
    cases hrel
  rw [hquery'] at hrel
  have hsame : SameQuery lib query query' := by
    cases hrel
    assumption
  obtain ⟨hparams, hnames⟩ := redact_same (keptQuery_same hsame (UrlParts.ofText url.toList).fragment)
  constructor
  · rw [keptParts_eq hquery, keptParts_eq hquery']
    exact congrArg (fun head => cleaned (head.dropWhile isSpace)) h.head
  · rw [keptParts_eq hquery, keptParts_eq hquery']
    exact congrArg (Option.map fun f => (f.rdropWhile isSpace).filter (!isLineBreak ·)) h.fragment
  · simp only [paramsOf, keptParts_eq hquery, keptParts_eq hquery', keptOf, Option.getD_some, parseQsl, String.toList_ofList,
      ← h.fragment]
    exact hparams
  · simp only [namesSecret, paramsOf, keptParts_eq hquery, keptParts_eq hquery', keptOf, Option.getD_some, parseQsl,
      String.toList_ofList, ← h.fragment]
    exact hnames

/-- URLs that differ in their tokens only come to the same. -/
theorem sanitizeUrl_same {url url' : String} (h : SameUrl lib url url') (hsplit : canSplit lib url = true) :
    sanitizeUrl lib url = sanitizeUrl lib url' := by
  by_cases htoken : carriesToken lib url = true
  · have hkept := h.kept htoken
    have hnames := namesSecret_of_carriesToken htoken
    obtain ⟨head, hhead⟩ := (canSplit_iff url).mp hsplit
    have hhead' := hhead
    rw [hkept.head] at hhead'
    rw [sanitizeUrl_eq, sanitizeUrl_eq, hhead, hhead']
    simp only [← hkept.names, hnames, if_true, sanitized, UrlParts.result, hkept.params, hkept.fragment]
  · rw [eq_of_no_token h (by simpa using htoken)]

/-- A URL that cannot be split stays. -/
theorem sanitizeUrl_unsplit {url : String} (h : canSplit lib url = false) : sanitizeUrl lib url = url := by
  rw [sanitizeUrl_eq]
  cases hhead : splitHead lib (keptParts url).head with
  | error e => rfl
  | ok head =>
    rw [(canSplit_iff url).mpr ⟨head, hhead⟩] at h
    cases h

/-- The tokens of a URL are hidden exactly if it carries none, or can be split. -/
theorem sanitizeUrl_hides_iff (url : String) :
    (∀ url', SameUrl lib url url' → sanitizeUrl lib url = sanitizeUrl lib url') ↔
      (canSplit lib url = true ∨ carriesToken lib url = false) := by
  constructor
  · intro h
    by_cases hsplit : canSplit lib url = true
    · exact .inl hsplit
    · right
      rw [← Bool.not_eq_true]
      intro htoken
      obtain ⟨url', hsame, hne⟩ := exists_other htoken
      have hunsplit : canSplit lib url = false := by simpa using hsplit
      have hunsplit' : canSplit lib url' = false := by
        rw [← Bool.not_eq_true, canSplit_iff, ← (hsame.kept htoken).head, ← canSplit_iff]
        exact hsplit
      have heq := h url' hsame
      rw [sanitizeUrl_unsplit hunsplit, sanitizeUrl_unsplit hunsplit'] at heq
      exact hne heq.symm
  · intro h url' hsame
    rcases h with hsplit | hnone
    · exact sanitizeUrl_same hsame hsplit
    · rw [eq_of_no_token hsame hnone]

/-! ## Sanitizing twice -/

/-- What `urlsplit` keeps of the URL. -/
def kept (url : String) : String := String.ofList (cleaned (strip url).toList)

/-- `urlsplit` drops control characters, and whitespace comes behind. -/
def startsBlank (url : String) : Bool := (kept url).toList.head?.any isSpace

theorem keptParts_text (url : String) : (keptParts url).text = (kept url).toList := by
  rw [keptParts, UrlParts.text_ofText, kept, String.toList_ofList]

theorem cleaned_unbroken (l : List Char) : ∀ c ∈ cleaned l, isLineBreak c = false := by
  intro c hc
  simpa using (List.mem_filter.mp hc).2

theorem isLineBreak_low {c : Char} (h : isLineBreak c = true) : isSpace c = true ∧ c.toNat ≤ 32 := by
  have hcases : c = '\t' ∨ c = '\r' ∨ c = '\n' := by simpa [isLineBreak] using h
  rcases hcases with rfl | rfl | rfl <;> decide

/-- What is kept does not begin with what `urlsplit` drops. -/
theorem cleaned_first {l rest : List Char} {c : Char} (h : cleaned l = c :: rest) : ¬c.toNat ≤ 32 := by
  rw [cleaned] at h
  cases hdrop : l.dropWhile (·.toNat ≤ 32) with
  | nil =>
    rw [hdrop] at h
    cases h
  | cons a rest' =>
    have hhigh : ¬a.toNat ≤ 32 := by simpa using dropWhile_head hdrop
    have hbreak : isLineBreak a = false := by
      rw [← Bool.not_eq_true]
      intro hbreak
      exact hhigh (isLineBreak_low hbreak).2
    rw [hdrop, List.filter_cons_of_pos (by simp [hbreak])] at h
    obtain ⟨rfl, -⟩ := List.cons.inj h
    exact hhigh

/-- What is kept of a trimmed text ends as that text does. -/
theorem kept_last {url : String} {rest : List Char} {c : Char} (h : (kept url).toList = rest ++ [c]) : isSpace c = false := by
  have htrimmed : Trimmed isSpace (strip url).toList := by
    rw [strip, String.toList_ofList]
    exact trimmed_trim url.toList
  rw [kept, String.toList_ofList, cleaned] at h
  rcases List.eq_nil_or_concat (strip url).toList with hempty | ⟨before, a, hconcat⟩
  · rw [hempty] at h
    simp at h
  · rw [List.concat_eq_append] at hconcat
    have hspace : isSpace a = false := htrimmed.last a before hconcat
    have hbreak : isLineBreak a = false := by
      rw [← Bool.not_eq_true]
      intro hbreak
      rw [(isLineBreak_low hbreak).1] at hspace
      cases hspace
    -- what is dropped is dropped before the last character
    obtain ⟨before', hdrop⟩ : ∃ before', (strip url).toList.dropWhile (·.toNat ≤ 32) = before' ++ [a] := by
      rcases List.eq_nil_or_concat ((strip url).toList.dropWhile (·.toNat ≤ 32)) with hnil | ⟨before', b, hb⟩
      · rw [hnil] at h
        simp at h
      · rw [List.concat_eq_append] at hb
        obtain ⟨dropped, hsuffix⟩ := List.dropWhile_suffix (l := (strip url).toList) (·.toNat ≤ 32)
        rw [hb, hconcat, ← List.append_assoc] at hsuffix
        obtain ⟨-, hlast⟩ := List.append_inj' hsuffix rfl
        exact ⟨before', by rw [hb, hlast]⟩
    rw [hdrop, List.filter_append, List.filter_cons_of_pos (by simp [hbreak]), List.filter_nil] at h
    obtain ⟨-, hlast⟩ := List.append_inj' h rfl
    rw [← (List.cons.inj hlast).1]
    exact hspace

/-- A text that is trimmed and has nothing to be dropped is kept. -/
theorem cleaned_strip {l : List Char} (hfirst : ∀ c rest, l = c :: rest → isSpace c = false ∧ ¬c.toNat ≤ 32)
    (hlast : ∀ c rest, l = rest ++ [c] → isSpace c = false) (hbreaks : ∀ c ∈ l, isLineBreak c = false) :
    cleaned (strip (String.ofList l)).toList = l := by
  have hstrip : (strip (String.ofList l)).toList = l := by
    rw [strip, String.toList_ofList, String.toList_ofList]
    exact trim_trimmed ⟨fun c rest h => (hfirst c rest h).1, hlast⟩
  have hdrop : l.dropWhile (·.toNat ≤ 32) = l := by
    cases l with
    | nil => rfl
    | cons c rest => exact List.dropWhile_cons_of_neg (by simpa using (hfirst c rest rfl).2)
  rw [hstrip, cleaned, hdrop, List.filter_eq_self]
  intro c hc
  simp [hbreaks c hc]

/-- The parts of a URL that has been sanitized. -/
structure Written (lib : UrlLib) (url : String) (head : String × String × String) (p : UrlParts) : Prop where
  text : sanitized lib url head = String.ofList p.text
  head : HeadText lib (keptParts url).head head.1 head.2.1 head.2.2 p.head
  query : p.query = some (urlencode ((paramsOf url).map (redactPair lib))).toList
  fragment : p.fragment = UrlText.notEmpty (keptParts url).fragment

theorem encoded_not_mark {c : Char} (h : isEncodedChar c = true) : c ≠ '#' ∧ isSpace c = false ∧ isLineBreak c = false := by
  have hascii : c.toNat < 128 := by
    simp only [isEncodedChar, isQuotedChar, isAsciiChar, Bool.or_eq_true, Bool.and_eq_true, decide_eq_true_eq, beq_iff_eq] at h
    rcases h with (h | rfl) | rfl
    · exact h.1
    · decide
    · decide
  exact @ascii_induction (fun c => isEncodedChar c = true → c ≠ '#' ∧ isSpace c = false ∧ isLineBreak c = false)
    (by decide +kernel) c hascii h

theorem scheme_not_mark {c : Char} (h : isSchemeChar c = true) : isHeadChar c = true ∧ isLineBreak c = false :=
  @ascii_induction (fun c => isSchemeChar c = true → isHeadChar c = true ∧ isLineBreak c = false) (by decide +kernel) c
    (UrlText.isAscii_of_isSchemeChar h) h

theorem params_ne_nil {url : String} (hnames : namesSecret lib url = true) : (paramsOf url).map (redactPair lib) ≠ [] := by
  intro hnil
  rw [namesSecret, List.map_eq_nil_iff.mp hnil] at hnames
  cases hnames

/-- A URL of a head, a query that `urlencode` has written, and a fragment. -/
def partsWith (text : List Char) (hchars : ∀ c ∈ text, isHeadChar c = true) (items : List (String × String))
    (fragment : Option (List Char)) : UrlParts where
  head := text
  query := some (urlencode items).toList
  fragment := fragment
  head_chars := hchars
  query_chars := by
    intro q hq hmem
    rw [← Option.some.inj hq] at hmem
    exact (encoded_not_mark (urlencode_chars _ _ hmem)).1 rfl

theorem partsWith_fragment {text : List Char} {hchars : ∀ c ∈ text, isHeadChar c = true} {items : List (String × String)}
    {fragment : Option (List Char)} : (partsWith text hchars items fragment).fragment = fragment := rfl

theorem partsWith_text {text : List Char} {hchars : ∀ c ∈ text, isHeadChar c = true} {items : List (String × String)}
    {fragment : Option (List Char)} : (partsWith text hchars items fragment).text =
      text ++ ('?' :: (urlencode items).toList ++ (fragment.map ('#' :: ·)).getD []) := rfl

theorem sanitized_written (hlower : LowersAscii lib) {url : String} {head : String × String × String}
    (hhead : splitHead lib (keptParts url).head = .ok head) (hnames : namesSecret lib url = true) :
    ∃ p, Written lib url head p := by
  obtain ⟨scheme, netloc, path⟩ := head
  obtain ⟨text, htext⟩ := splitHead_unsplitHead hlower (keptParts url).head_chars hhead
  have hchars : ∀ c ∈ text, isHeadChar c = true :=
    htext.chars (isHeadChar · = true) rfl rfl (fun c hc => (scheme_not_mark hc).1) (keptParts url).head_chars
  refine ⟨partsWith text hchars ((paramsOf url).map (redactPair lib)) (UrlText.notEmpty (keptParts url).fragment), ?_, htext,
    rfl, partsWith_fragment⟩
  rw [partsWith_text]
  exact urlunsplit_text (keptParts url).fragment htext.written (urlencode_ne_empty (params_ne_nil hnames))

theorem notEmpty_some {fragment : Option (List Char)} {f : List Char} (h : UrlText.notEmpty fragment = some f) :
    fragment = some f ∧ f ≠ [] := by
  unfold UrlText.notEmpty at h
  split at h
  · cases h
  · rename_i hne
    refine ⟨h, ?_⟩
    rw [h] at hne
    exact hne

section

variable {url : String} {head : String × String × String} {p : UrlParts}

theorem Written.unbroken (h : Written lib url head p) : ∀ c ∈ p.text, isLineBreak c = false := by
  have hkept : ∀ c ∈ (keptParts url).text, isLineBreak c = false := by
    intro c hc
    rw [keptParts_text, kept, String.toList_ofList] at hc
    exact cleaned_unbroken _ c hc
  intro c hc
  rcases p.mem_text hc with hc | rfl | rfl | ⟨q, hq, hc⟩ | ⟨f, hf, hc⟩
  · exact h.head.chars (isLineBreak · = false) rfl rfl (fun c hc => (scheme_not_mark hc).2)
      (fun c hc => hkept c (List.mem_append_left _ hc)) c hc
  · rfl
  · rfl
  · rw [h.query] at hq
    rw [← Option.some.inj hq] at hc
    exact (encoded_not_mark (urlencode_chars _ _ hc)).2.2
  · obtain ⟨hf, -⟩ := notEmpty_some (h.fragment.symm.trans hf)
    apply hkept
    rw [(keptParts url).text_fragment hf]
    simp [hc]

theorem Written.last (h : Written lib url head p) (hnames : namesSecret lib url = true) {c : Char} {rest : List Char}
    (htext : p.text = rest ++ [c]) : isSpace c = false := by
  rcases hf : p.fragment with _ | f
  · -- it ends with the query
    have hquery : p.text = p.head ++ '?' :: (urlencode ((paramsOf url).map (redactPair lib))).toList := by
      simp [UrlParts.text, UrlParts.tail, UrlParts.queryText, UrlParts.fragmentText, h.query, hf]
    have hne : (urlencode ((paramsOf url).map (redactPair lib))).toList ≠ [] := by
      intro hnil
      exact urlencode_ne_empty (params_ne_nil hnames) (String.toList_eq_nil_iff.mp hnil)
    obtain ⟨query, hends⟩ := ends_as hne (hquery.symm.trans htext)
    have hmem : c ∈ (urlencode ((paramsOf url).map (redactPair lib))).toList := by simp [hends]
    exact (encoded_not_mark (urlencode_chars _ _ hmem)).2.1
  · obtain ⟨hfragment, hne⟩ := notEmpty_some (h.fragment.symm.trans hf)
    obtain ⟨f', rfl⟩ := ends_as hne ((p.text_fragment hf).symm.trans htext)
    have hkept : (kept url).toList = ((keptParts url).head ++ (keptParts url).queryText ++ '#' :: f') ++ [c] := by
      rw [← keptParts_text, (keptParts url).text_fragment hfragment]
      simp
    exact kept_last hkept

theorem letter_or_slash {c : Char} (h : c.isAlpha = true ∨ c = '/') : isSpace c = false ∧ ¬c.toNat ≤ 32 := by
  rcases h with h | rfl
  · exact @ascii_induction (fun c => c.isAlpha = true → isSpace c = false ∧ ¬c.toNat ≤ 32) (by decide +kernel) c
      (UrlText.isAscii_of_isSchemeChar (by simp [isSchemeChar, Char.isAlphanum, h])) h
  · decide

/-- It begins as the URL did, or with a letter or a mark. -/
theorem Written.first (h : Written lib url head p) {c : Char} {rest : List Char} (htext : p.text = c :: rest) :
    (p.head = (keptParts url).head ∧ ∃ rest', p.head = c :: rest') ∨ (isSpace c = false ∧ ¬c.toNat ≤ 32) := by
  cases hp : p.head with
  | nil =>
    right
    have hmark : p.text = '?' :: ((urlencode ((paramsOf url).map (redactPair lib))).toList ++ p.fragmentText) := by
      simp [UrlParts.text, UrlParts.tail, UrlParts.queryText, h.query, hp]
    obtain ⟨rfl, -⟩ := List.cons.inj (hmark.symm.trans htext)
    decide
  | cons d rest' =>
    rw [UrlParts.text, hp, List.cons_append] at htext
    obtain ⟨rfl, -⟩ := List.cons.inj htext
    rcases h.head.first with hsame | hnew
    · rw [hp] at hsame
      exact .inl ⟨hsame, rest', rfl⟩
    · exact .inr (letter_or_slash (hnew d rest' hp))

theorem keptParts_head {c : Char} {rest : List Char} (h : (keptParts url).head = c :: rest) :
    ∃ rest', (kept url).toList = c :: rest' := by
  rw [← keptParts_text, UrlParts.text, h]
  exact ⟨_, rfl⟩

/-- Unless it begins with whitespace, what is written is kept as it is. -/
theorem Written.unchanged (h : Written lib url head p) (hnames : namesSecret lib url = true) (hblank : startsBlank url = false) :
    keptParts (String.ofList p.text) = p := by
  rw [keptParts, cleaned_strip, UrlParts.ofText_text]
  · intro c rest htext
    rcases h.first htext with ⟨hsame, rest', hp⟩ | hplain
    · rw [hsame] at hp
      obtain ⟨rest'', hkept⟩ := keptParts_head hp
      constructor
      · rw [startsBlank, hkept] at hblank
        simpa using hblank
      · rw [kept, String.toList_ofList] at hkept
        exact cleaned_first hkept
    · exact hplain
  · intro c rest htext
    exact h.last hnames htext
  · exact h.unbroken

end

theorem redactPair_fst (item : String × String) : (redactPair lib item).1 = item.1 := by
  unfold redactPair
  split <;> rfl

theorem redactPair_twice (item : String × String) : redactPair lib (redactPair lib item) = redactPair lib item := by
  rw [redactPair, redactPair_fst]
  split
  · rename_i hsecret
    rw [redactPair, if_pos hsecret]
  · rfl

theorem any_redacted (items : List (String × String)) :
    (items.map (redactPair lib)).any (isSecretQueryKey lib ·.1) = items.any (isSecretQueryKey lib ·.1) := by
  rw [List.any_map]
  congr 1
  funext item
  exact congrArg _ (redactPair_fst item)

/-- What is written is written again. -/
theorem Written.again {url : String} {head : String × String × String} {p : UrlParts} (h : Written lib url head p)
    (hnames : namesSecret lib url = true) (hkept : keptParts (String.ofList p.text) = p) :
    sanitizeUrl lib (sanitized lib url head) = sanitized lib url head := by
  have hparams : paramsOf (String.ofList p.text) = (paramsOf url).map (redactPair lib) := by
    rw [paramsOf, hkept, h.query, Option.getD_some, String.ofList_toList, parseQsl_urlencode]
  have hnames' : namesSecret lib (String.ofList p.text) = true := by rw [namesSecret, hparams, any_redacted, ← hnames, namesSecret]
  have hread : splitHead lib (keptParts (String.ofList p.text)).head = .ok head := by rw [hkept, h.head.read]
  rw [h.text, sanitizeUrl_eq, hread]
  simp only [hnames', if_true]
  have htwice : ((paramsOf url).map (redactPair lib)).map (redactPair lib) = (paramsOf url).map (redactPair lib) := by
    rw [List.map_map]
    apply List.map_congr_left
    intro item _
    exact redactPair_twice item
  rw [sanitized_eq, hparams, hkept, htwice, h.fragment, UrlText.notEmpty_getD, ← sanitized_eq, h.text]

/-! ### Whitespace in front -/

/-- A text that begins with whitespace has no scheme and no network location. -/
theorem splitHead_blank {c : Char} {rest : List Char} (hspace : isSpace c = true) :
    splitHead lib (c :: rest) = .ok ("", "", String.ofList (c :: rest)) ∧
      unsplitHead "" "" (String.ofList (c :: rest)) = String.ofList (c :: rest) := by
  have halpha : c.isAlpha = false := by
    rw [← Bool.not_eq_true]
    intro h
    rw [(letter_or_slash (.inl h)).1] at hspace
    cases hspace
  have hslash : c ≠ '/' := by
    intro h
    subst h
    cases hspace
  have hscheme : splitScheme lib (String.ofList (c :: rest)) = ("", String.ofList (c :: rest)) := by
    apply splitScheme_none
    intro name rest' he _
    cases name with
    | nil => rfl
    | cons d name =>
      obtain ⟨rfl, -⟩ := List.cons.inj he
      simp [halpha]
  have hnetloc : splitNetloc (String.ofList (c :: rest)) = (none, String.ofList (c :: rest)) := by
    apply splitNetloc_none
    intro rest' he
    exact hslash (List.cons.inj he).1
  have hstarts : startsWith (String.ofList (c :: rest)) "//" = false := by
    rw [← Bool.not_eq_true, startsWith_slashes]
    intro h
    obtain ⟨rest', he⟩ := h
    exact hslash (List.cons.inj he).1
  constructor
  · unfold splitHead
    rw [hscheme]
    simp only [hnetloc]
    rfl
  · rw [unsplitHead, unsplitUrl, hstarts]
    simp

theorem query_of_names {url : String} (hnames : namesSecret lib url = true) : ∃ query, (keptParts url).query = some query := by
  cases hquery : (keptParts url).query with
  | some query => exact ⟨query, rfl⟩
  | none =>
    rw [namesSecret, paramsOf, hquery] at hnames
    cases hnames

theorem blank_head {url : String} (hblank : startsBlank url = true) :
    ∃ c rest, (keptParts url).head = c :: rest ∧ isSpace c = true := by
  obtain ⟨c, rest, hkept, hspace⟩ : ∃ c rest, (kept url).toList = c :: rest ∧ isSpace c = true := by
    rw [startsBlank] at hblank
    cases hkept : (kept url).toList with
    | nil =>
      rw [hkept] at hblank
      cases hblank
    | cons c rest =>
      rw [hkept] at hblank
      exact ⟨c, rest, rfl, hblank⟩
  rw [← keptParts_text, UrlParts.text] at hkept
  cases hhead : (keptParts url).head with
  | cons d rest' =>
    rw [hhead] at hkept
    obtain ⟨rfl, -⟩ := List.cons.inj hkept
    exact ⟨d, rest', rfl, hspace⟩
  | nil =>
    rw [hhead, List.nil_append] at hkept
    rcases not_head ((keptParts url).tail_first c rest hkept) with rfl | rfl
    · cases hspace
    · cases hspace

/-- What is split again is the head without the whitespace. -/
theorem keptParts_again {p : UrlParts} {query : List Char} (hquery : p.query = some query) :
    (keptParts (String.ofList p.text)).head = cleaned (p.head.dropWhile isSpace) ∧
      (keptParts (String.ofList p.text)).query = some (keptQuery query p.fragment) := by
  have hparts : UrlParts.ofText (String.ofList p.text).toList = p := by rw [String.toList_ofList, UrlParts.ofText_text]
  rw [← hparts] at hquery
  have hkept := keptParts_eq hquery
  rw [hkept]
  simp only [keptOf]
  rw [hparts]
  exact ⟨rfl, rfl⟩

theorem keptQuery_encoded (items : List (String × String)) (fragment : Option (List Char)) :
    keptQuery (urlencode items).toList fragment = (urlencode items).toList := by
  have hend : (urlencode items).toList.rdropWhile isSpace = (urlencode items).toList := by
    have := @rdropWhile_append_blank _ isSpace (urlencode items).toList [] blank_nil fun c rest h => by
      exact (encoded_not_mark (urlencode_chars items c (by simp [h]))).2.1
    rwa [List.append_nil] at this
  rw [keptQuery, hend, ite_self, List.filter_eq_self]
  intro c hc
  simp [(encoded_not_mark (urlencode_chars items c hc)).2.2]

/-- What is left of a URL that begins with whitespace is split again, and comes to something shorter. -/
theorem Written.blank {url : String} {head : String × String × String} {p : UrlParts} (hlower : LowersAscii lib)
    (h : Written lib url head p) (hhead : splitHead lib (keptParts url).head = .ok head) (hnames : namesSecret lib url = true)
    (hblank : startsBlank url = true) :
    sanitizeUrl lib (sanitized lib url head) = sanitized lib url head ↔ canSplit lib (kept url) = false := by
  obtain ⟨c, rest, hkept, hspace⟩ := blank_head hblank
  obtain ⟨query, hquery⟩ := query_of_names hnames
  obtain ⟨hread, hwritten⟩ := @splitHead_blank lib c rest hspace
  rw [hkept] at hhead
  obtain rfl := Except.ok.inj (hhead.symm.trans hread)
  have hphead : p.head = c :: rest := by
    have := h.head.written
    simp only at this
    rw [hwritten] at this
    exact (String.ofList_injective this).symm
  have hagain := keptParts_again h.query
  have hsame : canSplit lib (kept url) = canSplit lib (String.ofList p.text) := by
    have hkeptUrl := keptParts_again hquery
    rw [keptParts_text, String.ofList_toList] at hkeptUrl
    rw [Bool.eq_iff_iff, canSplit_iff, canSplit_iff, hkeptUrl.1, hagain.1, hkept, hphead]
  rw [hsame, h.text]
  constructor
  · intro htwice
    rw [← Bool.not_eq_true]
    intro hsplit
    obtain ⟨head', hhead'⟩ := (canSplit_iff _).mp hsplit
    have hnames' : namesSecret lib (String.ofList p.text) = true := by
      rw [namesSecret, paramsOf, hagain.2, Option.getD_some, keptQuery_encoded, String.ofList_toList, parseQsl_urlencode,
        any_redacted, ← hnames, namesSecret]
    obtain ⟨p', hp'⟩ := sanitized_written hlower hhead' hnames'
    rw [sanitizeUrl_eq, hhead'] at htwice
    simp only [hnames', if_true] at htwice
    rw [hp'.text] at htwice
    have hparts : p' = p := by
      rw [← UrlParts.ofText_text p', String.ofList_injective htwice, UrlParts.ofText_text]
    subst hparts
    rcases hp'.head.first with hfirst | hfirst
    · -- the whitespace is gone
      have hlength := congrArg List.length hfirst
      rw [hagain.1, hphead, List.dropWhile_cons_of_pos hspace, List.length_cons] at hlength
      have hle : (cleaned (rest.dropWhile isSpace)).length ≤ rest.length :=
        (List.length_filter_le _ _).trans ((List.length_dropWhile_le _ _).trans (List.length_dropWhile_le _ _))
      omega
    · rw [(letter_or_slash (hfirst c rest hphead)).1] at hspace
      cases hspace
  · exact sanitizeUrl_unsplit

/-- Whether sanitizing the URL once more would change nothing. -/
def steadyUrl (lib : UrlLib) (url : String) : Bool := !(namesSecret lib url && startsBlank url && canSplit lib (kept url))

theorem sanitizeUrl_twice_iff (hlower : LowersAscii lib) (url : String) :
    sanitizeUrl lib (sanitizeUrl lib url) = sanitizeUrl lib url ↔ steadyUrl lib url = true := by
  by_cases hnames : namesSecret lib url = true
  · cases hhead : splitHead lib (keptParts url).head with
    | error e =>
      -- it stays, and whitespace in front would have been split
      have hstays : sanitizeUrl lib url = url := by rw [sanitizeUrl_eq, hhead]
      have hblank : startsBlank url = false := by
        rw [← Bool.not_eq_true]
        intro hblank
        obtain ⟨c, rest, hkept, hspace⟩ := blank_head hblank
        rw [hkept, (@splitHead_blank lib c rest hspace).1] at hhead
        cases hhead
      simp [hstays, steadyUrl, hblank]
    | ok head =>
      have hsanitized : sanitizeUrl lib url = sanitized lib url head := by
        rw [sanitizeUrl_eq, hhead]
        simp only [hnames, if_true]
      obtain ⟨p, hp⟩ := sanitized_written hlower hhead hnames
      rw [hsanitized]
      by_cases hblank : startsBlank url = true
      · rw [hp.blank hlower hhead hnames hblank]
        simp [steadyUrl, hnames, hblank]
      · have hplain : startsBlank url = false := by simpa using hblank
        simp [hp.again hnames (hp.unchanged hnames hplain), steadyUrl, hplain]
  · have hstays : sanitizeUrl lib url = url := by
      rw [sanitizeUrl_eq]
      split
      · rfl
      · rw [if_neg hnames]
    simp [hstays, steadyUrl, hnames]

end

end Imghost.Telemetry
