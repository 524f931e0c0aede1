/-
  Imghost.Web.OriginForms — what `_normalize_origin` makes of the forms of an origin.

  An origin is written with a scheme in any case, a host and perhaps a port and a slash.
  The function lower-cases the host, drops the port its scheme stands for and puts the
  parts together again. `hostname` gives an IPv6 address without its brackets, and they
  are not put back: the result is no origin, and two addresses can have the same one.

  - `origins_are_faithful_iff`: the results are origins, normalise to themselves and tell origins
    apart exactly when no host is an IPv6 address and no port has more digits than `int` takes.
  - `brackets_are_lost`: `http://[::1]:8080` becomes `http://::1:8080`, and so does
    `http://[::1:8080]`.
-/

import Imghost.Web.PublicOrigin
import Imghost.Web.UrlText

namespace Imghost.Web

open Imghost.Model Imghost.Data

/-! ## Origins as they are written -/

inductive HttpScheme where
  | http
  | https
  deriving DecidableEq, Repr

def HttpScheme.text : HttpScheme → List Char
  | .http => "http".toList
  | .https => "https".toList

def HttpScheme.defaultPort : HttpScheme → Nat
  | .http => 80
  | .https => 443

/-- A string that denotes an origin. -/
structure OriginText (lib : UrlLib) where
  written : List Char
  scheme : HttpScheme
  host : HostText lib
  port : Option PortText
  slash : Bool
  letters : ∀ c ∈ written, c.isAlpha = true
  lowered : written.map Char.toLower = scheme.text

variable {lib : UrlLib}

namespace OriginText

def authority (o : OriginText lib) : Authority lib where
  user := none
  host := o.host
  port := o.port
  user_chars := no_user_chars

theorem isSchemeChar_of_isAlpha {c : Char} (h : c.isAlpha = true) : isSchemeChar c = true := by
  simp [isSchemeChar, Char.isAlphanum, h]

def url (o : OriginText lib) : UrlText where
  scheme := o.written
  netloc := o.authority.text
  path := if o.slash then ['/'] else []
  query := none
  fragment := none
  scheme_first := by
    have hlength := congrArg List.length o.lowered
    have hletters := o.letters
    cases hw : o.written with
    | nil => cases hs : o.scheme <;> rw [hw, hs] at hlength <;> cases hlength
    | cons c rest => exact hletters c (hw ▸ List.mem_cons_self)
  scheme_chars := fun c hc => isSchemeChar_of_isAlpha (o.letters c hc)
  netloc_chars := o.authority.text_chars
  path_first := by cases o.slash <;> simp
  path_chars := by
    intro c hc
    cases hs : o.slash <;> simp only [hs, Bool.false_eq_true, if_false, if_true, List.not_mem_nil, List.mem_singleton] at hc
    subst hc
    decide
  query_chars := by simp
  fragment_chars := by simp

/-- The string. -/
def string (o : OriginText lib) : String := String.ofList o.url.text

def hostLower (o : OriginText lib) : List Char := o.host.bare.map Char.toLower

/-- The number of the port, where one is written. -/
def portNumber (o : OriginText lib) : Option Nat := o.port.bind PortText.number

def effectivePort (o : OriginText lib) : Nat := o.portNumber.getD o.scheme.defaultPort

/-- The port has no more digits than `int` takes. -/
def ShortPort (o : OriginText lib) : Prop := ∀ port ∈ o.port, port.digits.length ≤ intMaxStrDigits

/-- The host is a name or an IPv4 address, and the port can be read. -/
def Plain (o : OriginText lib) : Prop := o.host.isName = true ∧ o.ShortPort

end OriginText

/-- The same scheme, the same host up to letter case and the same port. -/
structure SameOrigin (a b : OriginText lib) : Prop where
  scheme : a.scheme = b.scheme
  kind : a.host.isName = b.host.isName
  host : a.hostLower = b.hostLower
  port : a.effectivePort = b.effectivePort

/-- The result is an origin that normalises to itself. -/
def NormalOrigin (a : OriginText lib) : Prop :=
  ∃ o : OriginText lib, normalizeOrigin lib a.string = .ok (some o.string) ∧
    normalizeOrigin lib o.string = .ok (some o.string)

/-- Both results are origins, and they tell the origins apart. -/
structure Faithful (a b : OriginText lib) : Prop where
  left : NormalOrigin a
  right : NormalOrigin b
  distinct : normalizeOrigin lib a.string = normalizeOrigin lib b.string → SameOrigin a b

/-! ## Reading an origin -/

theorem strip_unspaced {l : List Char} (h : ∀ c ∈ l, isSpace c = false) : strip (String.ofList l) = String.ofList l := by
  have hdrop : ∀ l : List Char, (∀ c ∈ l, isSpace c = false) → l.dropWhile isSpace = l := by
    intro l hl
    cases l with
    | nil => rfl
    | cons c l => rw [List.dropWhile_cons_of_neg (by simp [hl c List.mem_cons_self])]
  have hreverse : ∀ c ∈ l.reverse, isSpace c = false := fun c hc => h c (List.mem_reverse.mp hc)
  rw [strip, String.toList_ofList, hdrop l h, hdrop _ hreverse, List.reverse_reverse]

theorem isAscii_of_isAlpha {c : Char} (h : c.isAlpha = true) : c.toNat < 128 :=
  UrlText.isAscii_of_isSchemeChar (OriginText.isSchemeChar_of_isAlpha h)

/-- A character of a host or a port is neither a space nor a delimiter. -/
def isHostChar (c : Char) : Bool := isNameChar c || isAddressChar c || c.isDigit

theorem isHostChar_table {c : Char} (h : c.toNat < 128) :
    (isHostChar c = true → isSpace c = false ∧ isSpace c.toLower = false ∧ ['/', '?', '#', '@'].contains c.toLower = false) ∧
      (c.isAlpha = true → isSpace c = false) :=
  @ascii_induction (fun c =>
    (isHostChar c = true → isSpace c = false ∧ isSpace c.toLower = false ∧ ['/', '?', '#', '@'].contains c.toLower = false) ∧
      (c.isAlpha = true → isSpace c = false)) (by decide +kernel) c h

theorem bare_isHostChar (host : HostText lib) : ∀ c ∈ host.bare, c.toNat < 128 ∧ isHostChar c = true := by
  intro c hc
  cases host with
  | name text hne hchars =>
    have hchar := hchars c hc
    exact ⟨isAscii_of_isNameChar hchar, by simp [isHostChar, hchar]⟩
  | address text hchars hcolons hvalid =>
    have hchar := hchars c hc
    exact ⟨isAscii_of_isAddressChar hchar, by simp [isHostChar, hchar]⟩

theorem bare_unspaced (host : HostText lib) : ∀ c ∈ host.bare, isSpace c = false ∧ isSpace c.toLower = false := by
  intro c hc
  obtain ⟨hascii, hchar⟩ := bare_isHostChar host c hc
  obtain ⟨hspace, hlower, -⟩ := (isHostChar_table hascii).1 hchar
  exact ⟨hspace, hlower⟩

theorem portText_unspaced (port : Option PortText) : ∀ c ∈ portText port, isSpace c = false := by
  intro c hc
  cases port with
  | none => cases hc
  | some port =>
    rcases List.mem_cons.mp hc with rfl | hc
    · decide
    · have hdigit := port.chars c hc
      exact ((isHostChar_table (isAscii_of_isDigit hdigit)).1 (by simp [isHostChar, hdigit])).1

namespace OriginText

variable {o : OriginText lib}

theorem string_unspaced : ∀ c ∈ o.url.text, isSpace c = false := by
  intro c hc
  have hhost : ∀ c ∈ o.host.text, isSpace c = false := by
    intro c hc
    cases hkind : o.host with
    | name text hne hchars =>
      rw [hkind] at hc
      have hbare := bare_unspaced o.host c
      rw [hkind] at hbare
      exact (hbare hc).1
    | address text hchars hcolons hvalid =>
      rw [hkind, HostText.text, List.mem_cons, List.mem_append, List.mem_singleton] at hc
      have hbare := bare_unspaced o.host c
      rw [hkind] at hbare
      rcases hc with rfl | hc | rfl
      · decide
      · exact (hbare hc).1
      · decide
  simp only [UrlText.text, UrlText.tail, UrlText.queryText, UrlText.fragmentText, url, Authority.text, Authority.userText,
    Authority.hostPort, authority, Option.map_none, Option.getD_none, List.nil_append, List.append_nil, List.mem_append,
    List.mem_cons] at hc
  rcases hc with hc | rfl | rfl | rfl | (hc | hc) | hc
  · have hletter := o.letters c hc
    exact (isHostChar_table (isAscii_of_isAlpha hletter)).2 hletter
  · decide
  · decide
  · decide
  · exact hhost c hc
  · exact portText_unspaced o.port c hc
  · cases hs : o.slash <;> simp only [hs, Bool.false_eq_true, if_false, if_true, List.not_mem_nil, List.mem_singleton] at hc
    subst hc
    decide

/-- What `urlsplit` makes of an origin. -/
def parsed (o : OriginText lib) : SplitResult :=
  ⟨String.ofList o.scheme.text, String.ofList o.authority.text, if o.slash then "/" else "", "", ""⟩

theorem urlsplit_string (hlower : LowersAscii lib) : urlsplit lib o.string = .ok o.parsed := by
  have hscheme : lib.lower (String.ofList o.written) = String.ofList o.scheme.text := by
    rw [hlower _ fun c hc => isAscii_of_isAlpha (o.letters c hc), o.lowered]
  have hbrackets : checkBrackets lib (String.ofList o.url.netloc) = .ok () := o.authority.checkBrackets_ok
  have hsplit := o.url.urlsplit_written hbrackets
  rw [string, hsplit, parsed]
  simp only [url, hscheme]
  cases o.slash <;> rfl

theorem userinfo_parsed : o.parsed.userinfo = (none, none) := o.authority.userinfo_eq rfl

/-- An origin passes all checks of the function but those of its end. -/
theorem normalizeOrigin_string (hlower : LowersAscii lib) : normalizeOrigin lib o.string = .ok (originOf lib o.parsed) := by
  have hstrip : strip o.string = o.string := strip_unspaced string_unspaced
  have hne : o.string ≠ "" := by
    intro he
    have hnil := ofList_eq_empty.mp he
    simp [UrlText.text] at hnil
  have hscheme : ¬ (o.parsed.scheme ≠ "http" ∧ o.parsed.scheme ≠ "https") := by
    rw [parsed]
    cases o.scheme <;> simp [HttpScheme.text]
  have hpath : ["", "/"].contains o.parsed.path = true := by
    rw [parsed]
    cases o.slash <;> rfl
  rw [normalizeOrigin, hstrip]
  simp only [hne, if_false, urlsplit_string hlower, hscheme, userinfo_parsed, hpath]
  rfl

/-! ## The result -/

/-- The port that is written, unless it is the one of the scheme. -/
def normalNumber (o : OriginText lib) : Option Nat :=
  if o.portNumber = some o.scheme.defaultPort then none else o.portNumber

/-- What the function writes: the host as `hostname` gives it. -/
def result (o : OriginText lib) : List Char := o.scheme.text ++ ':' :: '/' :: '/' :: (o.hostLower ++ numberText o.normalNumber)

theorem hostLower_ascii : ∀ c ∈ o.hostLower, c.toNat < 128 := by
  intro c hc
  obtain ⟨d, hd, rfl⟩ := List.mem_map.mp hc
  exact toLower_ascii (o.host.bare_ascii d hd).1

theorem hostLower_lower : o.hostLower.map Char.toLower = o.hostLower := by
  rw [hostLower, List.map_map]
  apply List.map_congr_left
  intro c hc
  exact toLower_toLower (o.host.bare_ascii c hc).1

/-- No character of a host is a delimiter. -/
theorem not_mem_hostLower {c : Char} (hc : c ∈ ['/', '?', '#', '@']) : c ∉ o.hostLower := by
  have hall : ∀ d ∈ o.host.bare, ['/', '?', '#', '@'].contains d.toLower = false := by
    intro d hd
    obtain ⟨hascii, hchar⟩ := bare_isHostChar o.host d hd
    exact ((isHostChar_table hascii).1 hchar).2.2
  intro hin
  obtain ⟨d, hd, rfl⟩ := List.mem_map.mp hin
  have hno := hall d hd
  rw [List.contains_eq_mem, decide_eq_true hc] at hno
  cases hno

theorem parsed_port (hport : o.ShortPort) : o.parsed.port = .ok o.portNumber := by
  have hall : (o.authority.port.all fun port => decide (port.digits.length ≤ intMaxStrDigits)) = true := by
    rw [Option.all_eq_true]
    intro port hin
    exact decide_eq_true (hport port hin)
  rw [o.authority.port_eq rfl, if_pos hall]
  rfl

/-- The result, where the port can be read. -/
theorem originOf_parsed (hlower : LowersAscii lib) (hport : o.ShortPort) : originOf lib o.parsed = some (String.ofList o.result) := by
  have hhostname : o.parsed.hostname lib = some (String.ofList o.hostLower) := o.authority.hostname_eq hlower rfl
  have hportNumber : o.parsed.port = .ok o.portNumber := parsed_port hport
  have hstrip : strip (String.ofList o.hostLower) = String.ofList o.hostLower := by
    apply strip_unspaced
    intro c hc
    obtain ⟨d, hd, rfl⟩ := List.mem_map.mp hc
    exact (bare_unspaced o.host d hd).2
  have hlow : lib.lower (String.ofList o.hostLower) = String.ofList o.hostLower := by
    rw [hlower _ hostLower_ascii, hostLower_lower]
  have hne : String.ofList o.hostLower ≠ "" := by
    intro he
    have hnil := ofList_eq_empty.mp he
    exact o.host.bare_ne_nil (List.map_eq_nil_iff.mp hnil)
  have hany : (['/', '?', '#', '@'].any (hasChar · (String.ofList o.hostLower))) = false := by
    rw [List.any_eq_false]
    intro c hc
    simpa [hasChar] using not_mem_hostLower hc
  have hscheme : ((o.parsed.scheme = "http" && o.portNumber = some 80) || (o.parsed.scheme = "https" && o.portNumber = some 443)) =
      decide (o.portNumber = some o.scheme.defaultPort) := by
    rw [Bool.eq_iff_iff, parsed]
    cases o.scheme <;> simp [HttpScheme.text, HttpScheme.defaultPort] <;> exact decide_eq_true_iff.symm
  have hnumber : (if decide (o.portNumber = some o.scheme.defaultPort) = true then none else o.portNumber) = o.normalNumber := by
    simp [normalNumber]
  simp only [originOf, hhostname, Option.getD_some, hstrip, hlow, hne, decide_false, hany, Bool.or_false, hportNumber, hscheme,
    hnumber, Bool.false_eq_true, if_false]
  rw [parsed, result]
  cases o.normalNumber with
  | none =>
    rw [Option.some.injEq, ← String.toList_inj]
    simp [numberText]
  | some n =>
    rw [Option.some.injEq, ← String.toList_inj]
    simp [numberText]

/-- Where the port cannot be read there is no result. -/
theorem originOf_of_port_error {parsed : SplitResult} (h : parsed.port = .error .valueError) : originOf lib parsed = none := by
  simp only [originOf, h]
  split <;> rfl

theorem originOf_long (hport : ¬ o.ShortPort) : originOf lib o.parsed = none := by
  apply originOf_of_port_error
  have hall : ¬ (o.authority.port.all fun port => decide (port.digits.length ≤ intMaxStrDigits)) = true := by
    intro hall
    rw [Option.all_eq_true] at hall
    exact hport fun port hin => of_decide_eq_true (hall port hin)
  rw [o.authority.port_eq rfl, if_neg hall]

theorem normalizeOrigin_none {text : String} {parsed : SplitResult} (hstrip : strip text = text)
    (hsplit : urlsplit lib text = .ok parsed) (hnone : originOf lib parsed = none) : normalizeOrigin lib text = .ok none := by
  rw [normalizeOrigin, hstrip]
  simp only [hsplit, hnone]
  split
  · rfl
  · split
    · rfl
    · split <;> rfl

/-! ## Names -/

theorem effectivePort_eq (o : OriginText lib) : o.effectivePort = o.normalNumber.getD o.scheme.defaultPort := by
  rw [effectivePort, normalNumber]
  by_cases h : o.portNumber = some o.scheme.defaultPort
  · simp [h]
  · rw [if_neg h]

theorem normalNumber_le {n : Nat} (h : o.normalNumber = some n) : n ≤ 65535 := by
  have hnumber : o.portNumber = some n := by
    rw [normalNumber] at h
    split at h
    · cases h
    · exact h
  obtain ⟨port, -, hn⟩ := Option.bind_eq_some_iff.mp hnumber
  exact PortText.number_le hn

/-- An origin in its normal form: the result for another one. -/
structure NormalForm (o c : OriginText lib) : Prop where
  string : c.string = String.ofList o.result
  scheme : c.scheme = o.scheme
  host : c.hostLower = o.hostLower
  port : c.portNumber = o.normalNumber
  plain : c.Plain

theorem HttpScheme_letters (scheme : HttpScheme) :
    (∀ c ∈ scheme.text, c.isAlpha = true) ∧ scheme.text.map Char.toLower = scheme.text := by
  cases scheme with
  | http => exact ⟨List.all_eq_true.mp (by decide), by decide⟩
  | https => exact ⟨List.all_eq_true.mp (by decide), by decide⟩

theorem exists_normalForm (hname : o.host.isName = true) : ∃ c, NormalForm o c := by
  cases hhost : o.host with
  | address text hchars hcolons hvalid =>
    rw [hhost] at hname
    cases hname
  | name text hne hchars =>
    have hlowerChars := isNameChar_lower hchars
    have hbare : o.hostLower = text.map Char.toLower := by
      rw [hostLower, hhost]
      rfl
    obtain ⟨port, hnumber, htext, hshort⟩ := @exists_portText o.normalNumber fun n hn => normalNumber_le hn
    obtain ⟨hletters, hlowered⟩ := HttpScheme_letters o.scheme
    refine ⟨⟨o.scheme.text, o.scheme, .name (text.map Char.toLower) (by simpa using hne) hlowerChars, port, false, hletters,
      hlowered⟩, ?_, rfl, ?_, hnumber, rfl, hshort⟩
    · rw [result, hbare, ← htext]
      simp [string, url, UrlText.text, UrlText.tail, UrlText.queryText, UrlText.fragmentText, Authority.text, Authority.userText,
        Authority.hostPort, authority, HostText.text]
    · have hlow := o.hostLower_lower
      rw [hbare] at hlow ⊢
      exact hlow

/-- A normal form is its own result. -/
theorem NormalForm.result_eq {c : OriginText lib} (h : NormalForm o c) : c.result = o.result := by
  have hnumber : c.normalNumber = o.normalNumber := by
    rw [normalNumber, h.port, h.scheme, normalNumber]
    by_cases hdefault : o.portNumber = some o.scheme.defaultPort
    · simp [hdefault]
    · simp [hdefault]
  rw [result, h.scheme, h.host, hnumber, result]

theorem normalize_short (hlower : LowersAscii lib) (hport : o.ShortPort) :
    normalizeOrigin lib o.string = .ok (some (String.ofList o.result)) := by
  rw [normalizeOrigin_string hlower, originOf_parsed hlower hport]

theorem Plain.normal (hlower : LowersAscii lib) (h : o.Plain) : NormalOrigin o := by
  obtain ⟨c, hc⟩ := exists_normalForm h.1
  refine ⟨c, ?_, ?_⟩
  · rw [normalize_short hlower h.2, hc.string]
  · rw [normalize_short hlower hc.plain.2, hc.result_eq, hc.string]

/-- Two names with one result have everything in common. -/
theorem same_of_result_eq (hlower : LowersAscii lib) {a b : OriginText lib} (ha : a.Plain) (hb : b.Plain)
    (h : String.ofList a.result = String.ofList b.result) : SameOrigin a b := by
  obtain ⟨c, hc⟩ := exists_normalForm ha.1
  obtain ⟨d, hd⟩ := exists_normalForm hb.1
  have hparsed : c.parsed = d.parsed := by
    have hsplit := urlsplit_string (o := c) hlower
    rw [hc.string, h, ← hd.string, urlsplit_string hlower] at hsplit
    exact (Except.ok.inj hsplit).symm
  have hscheme : a.scheme = b.scheme := by
    have htext : String.ofList c.scheme.text = String.ofList d.scheme.text := congrArg SplitResult.scheme hparsed
    rw [hc.scheme, hd.scheme] at htext
    generalize a.scheme = s, b.scheme = s' at htext
    cases s <;> cases s' <;> first | rfl | exact absurd htext (by decide)
  have hhost : a.hostLower = b.hostLower := by
    have hc' : c.parsed.hostname lib = some (String.ofList c.hostLower) := c.authority.hostname_eq hlower rfl
    have hd' : d.parsed.hostname lib = some (String.ofList d.hostLower) := d.authority.hostname_eq hlower rfl
    rw [hparsed, hd', Option.some.injEq, String.ofList_inj] at hc'
    rw [← hc.host, ← hd.host]
    exact hc'.symm
  have hport : a.normalNumber = b.normalNumber := by
    have hc' := parsed_port hc.plain.2
    rw [hparsed, parsed_port hd.plain.2] at hc'
    rw [← hc.port, ← hd.port]
    exact (Except.ok.inj hc').symm
  refine ⟨hscheme, ha.1.trans hb.1.symm, hhost, ?_⟩
  rw [effectivePort_eq, effectivePort_eq, hport, hscheme]

/-! ## Addresses -/

/-- The result for an address is read with another host, and no port. -/
theorem result_not_read {text : List Char} (hchars : ∀ c ∈ text, isAddressChar c = true)
    (hcolons : 2 ≤ text.count ':') (hbare : o.host.bare = text) :
    ∃ parsed, urlsplit lib (String.ofList o.result) = .ok parsed ∧ originOf lib parsed = none := by
  have hlowerChars : ∀ c ∈ o.hostLower, isAddressChar c = true := by
    rw [hostLower, hbare]
    exact isAddressChar_lower hchars
  have hlowerColons : 2 ≤ o.hostLower.count ':' := by
    rw [hostLower, hbare]
    exact colons_lower hcolons
  have hnot : ∀ c, isAddressChar c = false → c.isDigit = false → c ≠ ':' → c ∉ o.hostLower ++ numberText o.normalNumber := by
    intro c haddress hdigit hcolon
    rw [List.mem_append, not_or]
    exact ⟨not_mem_of_all hlowerChars haddress, not_mem_numberText hdigit hcolon _⟩
  have hnetloc : ∀ c ∈ o.hostLower ++ numberText o.normalNumber, isNetlocChar c = true := by
    intro c hc
    rcases List.mem_append.mp hc with hc | hc
    · exact isNetlocChar_of_isAddressChar (hlowerChars c hc)
    · rcases numberText_chars _ c hc with h | rfl
      · exact isNetlocChar_of_isDigit h
      · decide
  obtain ⟨hletters, -⟩ := HttpScheme_letters o.scheme
  let u : UrlText :=
    { scheme := o.scheme.text
      netloc := o.hostLower ++ numberText o.normalNumber
      path := []
      query := none
      fragment := none
      scheme_first := by cases o.scheme <;> decide
      scheme_chars := fun c hc => isSchemeChar_of_isAlpha (hletters c hc)
      netloc_chars := hnetloc
      path_first := .inl rfl
      path_chars := by simp
      query_chars := by simp
      fragment_chars := by simp }
  have htext : u.text = o.result := by
    simp [u, UrlText.text, UrlText.tail, UrlText.queryText, UrlText.fragmentText, result]
  have hbrackets : checkBrackets lib (String.ofList u.netloc) = .ok () := by
    have hopen : hasChar '[' (String.ofList u.netloc) = false := by
      simpa [hasChar, u] using hnot '[' (by decide) (by decide) (by decide)
    have hclose : hasChar ']' (String.ofList u.netloc) = false := by
      simpa [hasChar, u] using hnot ']' (by decide) (by decide) (by decide)
    simp [checkBrackets, hopen, hclose]
  obtain ⟨parsed, hsplit, hnetloc⟩ : ∃ parsed, urlsplit lib (String.ofList o.result) = .ok parsed ∧
      parsed.netloc = String.ofList (o.hostLower ++ numberText o.normalNumber) := by
    rw [← htext]
    exact ⟨_, u.urlsplit_written hbrackets, rfl⟩
  refine ⟨parsed, hsplit, ?_⟩
  have hat : '@' ∉ o.hostLower ++ numberText o.normalNumber := hnot '@' (by decide) (by decide) (by decide)
  have hopen : '[' ∉ numberText o.normalNumber := not_mem_numberText (by decide) (by decide) _
  have hhost : (rpartition '@' parsed.netloc).2.2 = String.ofList (o.hostLower ++ numberText o.normalNumber) := by
    rw [hnetloc, rpartition_absent hat]
  obtain ⟨first, second, -, -, hsecond, hinfo⟩ := hostinfo_unbracketed hlowerChars hlowerColons hopen hhost
  apply originOf_of_port_error
  have hdigits : isdigit second = false := by
    have hall : second.all isDigitChar = false := by
      rw [List.all_eq_false]
      exact ⟨':', hsecond, by decide⟩
    rw [isdigit, hall, Bool.and_false]
  rw [SplitResult.port, hinfo]
  simp [hdigits]

theorem not_normal_of_address (hlower : LowersAscii lib) (hname : o.host.isName = false) : ¬ NormalOrigin o := by
  intro h
  obtain ⟨c, hresult, hagain⟩ := h
  by_cases hport : o.ShortPort
  · rw [normalize_short hlower hport] at hresult
    have hstring : c.string = String.ofList o.result := (Option.some.inj (Except.ok.inj hresult)).symm
    have hstrip : strip c.string = c.string := strip_unspaced c.string_unspaced
    cases hhost : o.host with
    | name text hne hchars =>
      rw [hhost] at hname
      cases hname
    | address text hchars hcolons hvalid =>
      have hbare : o.host.bare = text := by
        rw [hhost]
        rfl
      obtain ⟨parsed, hsplit, hnone⟩ := result_not_read hchars hcolons hbare
      rw [← hstring] at hsplit
      rw [normalizeOrigin_none hstrip hsplit hnone] at hagain
      cases hagain
  · rw [normalizeOrigin_string hlower, originOf_long hport] at hresult
    cases hresult

theorem plain_of_normal (hlower : LowersAscii lib) (h : NormalOrigin o) : o.Plain := by
  constructor
  · by_contra hname
    exact not_normal_of_address hlower (by simpa using hname) h
  · by_contra hport
    obtain ⟨c, hresult, -⟩ := h
    rw [normalizeOrigin_string hlower, originOf_long hport] at hresult
    cases hresult

end OriginText

/-- The results are origins, normalise to themselves and tell the origins apart exactly when both hosts
    are names or IPv4 addresses and both ports can be read. -/
theorem origins_are_faithful_iff (lib : UrlLib) (hlower : LowersAscii lib) (a b : OriginText lib) :
    Faithful a b ↔ a.Plain ∧ b.Plain := by
  constructor
  · intro h
    exact ⟨OriginText.plain_of_normal hlower h.left, OriginText.plain_of_normal hlower h.right⟩
  · intro h
    obtain ⟨ha, hb⟩ := h
    refine ⟨ha.normal hlower, hb.normal hlower, ?_⟩
    intro hsame
    rw [OriginText.normalize_short hlower ha.2, OriginText.normalize_short hlower hb.2, Except.ok.injEq,
      Option.some.injEq] at hsame
    exact OriginText.same_of_result_eq hlower ha hb hsame

namespace FormSample

/-- With three addresses, and without IDNA. -/
def addressLib : UrlLib where
  lower text := String.ofList (text.toList.map Char.toLower)
  nfkc text := text
  IpAddress := String
  ipAddress text := if ["::1", "::1:8080", "192.0.2.7"].contains text then some text else none
  isIPv4 address := !hasChar ':' address
  str address := address
  inNetwork address cidr := address == cidr

theorem addressLib_lowers : LowersAscii addressLib := by
  intro l _
  show String.ofList ((String.ofList l).toList.map Char.toLower) = _
  rw [String.toList_ofList]

def port8080 : PortText := ⟨"8080".toList, List.all_eq_true.mp (by decide +kernel), by decide⟩

def images : OriginText addressLib where
  written := "HTTPS".toList
  scheme := .https
  host := .name "Images.example".toList (by decide) (List.all_eq_true.mp (by decide +kernel))
  port := some ⟨"0443".toList, List.all_eq_true.mp (by decide +kernel), by decide⟩
  slash := true
  letters := List.all_eq_true.mp (by decide +kernel)
  lowered := by decide

theorem loopback_chars : ∀ c ∈ "::1".toList, isAddressChar c = true := List.all_eq_true.mp (by decide +kernel)

theorem loopback_colons : 2 ≤ "::1".toList.count ':' := by decide

theorem http_letters : ∀ c ∈ "http".toList, c.isAlpha = true := List.all_eq_true.mp (by decide +kernel)

/-- `http://[::1]:8080` and `http://[::1:8080]`. -/
def loopback : OriginText addressLib where
  written := "http".toList
  scheme := .http
  host := .address "::1".toList loopback_chars loopback_colons (by decide +kernel)
  port := some port8080
  slash := false
  letters := http_letters
  lowered := by decide

def other : OriginText addressLib where
  written := "http".toList
  scheme := .http
  host := .address "::1:8080".toList (List.all_eq_true.mp (by decide +kernel)) (by decide) (by decide +kernel)
  port := none
  slash := false
  letters := http_letters
  lowered := by decide

end FormSample

open FormSample in
theorem a_name_is_kept :
    images.string = "HTTPS://Images.example:0443/" ∧
      normalizeOrigin addressLib images.string = .ok (some "https://images.example") ∧
      (Faithful images images ↔ images.Plain ∧ images.Plain) :=
  ⟨by decide +kernel, by decide +kernel, origins_are_faithful_iff addressLib addressLib_lowers images images⟩

open FormSample in
/-- The result is no origin, and another address has it too. -/
theorem brackets_are_lost :
    loopback.string = "http://[::1]:8080" ∧ other.string = "http://[::1:8080]" ∧
      normalizeOrigin addressLib loopback.string = .ok (some "http://::1:8080") ∧
      normalizeOrigin addressLib other.string = .ok (some "http://::1:8080") ∧
      normalizeOrigin addressLib "http://::1:8080" = .ok none ∧ ¬ Faithful loopback other := by
  have hresult : normalizeOrigin addressLib loopback.string = .ok (some "http://::1:8080") := by decide +kernel
  have hagain : normalizeOrigin addressLib "http://::1:8080" = .ok none := by decide +kernel
  refine ⟨by decide +kernel, by decide +kernel, hresult, by decide +kernel, hagain, ?_⟩
  intro h
  obtain ⟨o, hleft, hnormal⟩ := h.left
  rw [hresult, Except.ok.injEq, Option.some.injEq] at hleft
  rw [← hleft, hagain] at hnormal
  cases hnormal

end Imghost.Web
