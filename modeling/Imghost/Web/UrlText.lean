/-
  Imghost.Web.UrlText — URLs as they are written, and what `urlsplit` reads in them.

  A URL is a scheme, a network location, a path, and perhaps a query and a fragment; a
  network location is perhaps a user, a host and perhaps a port. A host is a name (a DNS
  name or an IPv4 address) or an IPv6 address in brackets.

  - `urlsplit_written`: the parts are read as they are written.
  - `Authority.userinfo_eq`, `Authority.hostinfo_eq`: and so are those of the network location.
  - `hostinfo_unbracketed`: an address without its brackets is no host and port: what stands
    before its first colon is the host, and the rest is no port.
-/

import Imghost.Web.Url

namespace Imghost.Web

open Imghost.Model Imghost.Data

/-! ## Characters -/

/-- A property of the ASCII characters, checked for each of them. -/
theorem ascii_induction {p : Char → Prop} (h : ∀ n < 128, p (Char.ofNat n)) {c : Char} (hc : c.toNat < 128) : p c := by
  rw [← Char.ofNat_toNat c]
  exact h _ hc

theorem not_mem_of_all {p : Char → Bool} {l : List Char} (h : ∀ c ∈ l, p c = true) {c : Char} (hc : p c = false) : c ∉ l := by
  intro hin
  rw [h c hin] at hc
  cases hc

/-- A character of a DNS name or an IPv4 address. -/
def isNameChar (c : Char) : Bool := c.toNat < 128 && (c.isAlphanum || c == '-' || c == '.' || c == '_')

/-- A character of an IPv6 address. -/
def isAddressChar (c : Char) : Bool :=
  c.toNat < 128 && (c.isDigit || ('a' ≤ c && c ≤ 'f') || ('A' ≤ c && c ≤ 'F') || c == ':' || c == '.')

/-- A character of a network location. -/
def isNetlocChar (c : Char) : Bool :=
  c.toNat < 128 && !(['/', '?', '#', '\t', '\r', '\n'].contains c)

/-- A character of a user name and a password. -/
def isUserChar (c : Char) : Bool := isNetlocChar c && c != '@' && c != '[' && c != ']'

theorem isAscii_of_isNameChar {c : Char} (h : isNameChar c = true) : c.toNat < 128 := by
  simp only [isNameChar, Bool.and_eq_true, decide_eq_true_iff] at h
  exact h.1

theorem isAscii_of_isAddressChar {c : Char} (h : isAddressChar c = true) : c.toNat < 128 := by
  simp only [isAddressChar, Bool.and_eq_true, decide_eq_true_iff] at h
  exact h.1

theorem isAscii_of_isDigit {c : Char} (h : c.isDigit = true) : c.toNat < 128 := by
  simp only [Char.isDigit, Bool.and_eq_true, decide_eq_true_iff] at h
  have hle : c.toNat ≤ 57 := UInt32.le_iff_toNat_le.mp h.2
  omega

theorem isAscii_of_isNetlocChar {c : Char} (h : isNetlocChar c = true) : c.toNat < 128 := by
  simp only [isNetlocChar, Bool.and_eq_true, decide_eq_true_iff] at h
  exact h.1

/-- What one kind of ASCII characters says of them, checked for each. -/
theorem ascii_imp {p q : Char → Bool} (hascii : ∀ c, p c = true → c.toNat < 128)
    (h : ∀ n < 128, p (Char.ofNat n) = true → q (Char.ofNat n) = true) {c : Char} (hc : p c = true) : q c = true :=
  @ascii_induction (fun c => p c = true → q c = true) h c (hascii c hc) hc

theorem ascii_not {p q : Char → Bool} (hascii : ∀ c, p c = true → c.toNat < 128)
    (h : ∀ n < 128, p (Char.ofNat n) = true → q (Char.ofNat n) = false) {c : Char} (hc : p c = true) : q c = false :=
  @ascii_induction (fun c => p c = true → q c = false) h c (hascii c hc) hc

theorem netloc_table : ∀ n < 128, isNameChar (Char.ofNat n) || isAddressChar (Char.ofNat n) || (Char.ofNat n).isDigit →
    isNetlocChar (Char.ofNat n) = true := by decide +kernel

theorem isNetlocChar_of_isNameChar {c : Char} (h : isNameChar c = true) : isNetlocChar c = true :=
  ascii_imp (fun _ => isAscii_of_isNameChar) (fun n hn hc => netloc_table n hn (by simp [hc])) h

theorem isNetlocChar_of_isAddressChar {c : Char} (h : isAddressChar c = true) : isNetlocChar c = true :=
  ascii_imp (fun _ => isAscii_of_isAddressChar) (fun n hn hc => netloc_table n hn (by simp [hc])) h

theorem isNetlocChar_of_isDigit {c : Char} (h : c.isDigit = true) : isNetlocChar c = true :=
  ascii_imp (fun _ => isAscii_of_isDigit) (fun n hn hc => netloc_table n hn (by simp [hc])) h

/-- `str.lower` of ASCII text. -/
def LowersAscii (lib : UrlLib) : Prop :=
  ∀ l : List Char, (∀ c ∈ l, c.toNat < 128) → lib.lower (String.ofList l) = String.ofList (l.map Char.toLower)

/-! ## Cutting a text -/

theorem ofList_eq_empty {l : List Char} : String.ofList l = "" ↔ l = [] := by
  constructor
  · intro h
    simpa using congrArg String.toList h
  · rintro rfl
    rfl

theorem partition_append {sep : Char} {xs ys : List Char} (h : sep ∉ xs) :
    partition sep (String.ofList (xs ++ sep :: ys)) = (String.ofList xs, true, String.ofList ys) := by
  simp [partition, cut_append h]

theorem partition_absent {sep : Char} {xs : List Char} (h : sep ∉ xs) :
    partition sep (String.ofList xs) = (String.ofList xs, false, "") := by
  simp [partition, cut_of_not_mem h]

theorem rpartition_append {sep : Char} {xs ys : List Char} (h : sep ∉ ys) :
    rpartition sep (String.ofList (xs ++ sep :: ys)) = (String.ofList xs, true, String.ofList ys) := by
  have hcut : cut sep (ys.reverse ++ sep :: xs.reverse) = (ys.reverse, true, xs.reverse) :=
    cut_append (by rwa [List.mem_reverse])
  simp [rpartition, hcut]

theorem rpartition_absent {sep : Char} {xs : List Char} (h : sep ∉ xs) :
    rpartition sep (String.ofList xs) = ("", false, String.ofList xs) := by
  have hcut : cut sep xs.reverse = (xs.reverse, false, []) := cut_of_not_mem (by rwa [List.mem_reverse])
  simp [rpartition, hcut]

/-! ## Hosts and ports -/

/-- A host as it is written: a name, or an IPv6 address in brackets. -/
inductive HostText (lib : UrlLib) where
  | name (text : List Char) (nonempty : text ≠ []) (chars : ∀ c ∈ text, isNameChar c = true)
  | address (text : List Char) (chars : ∀ c ∈ text, isAddressChar c = true) (colons : 2 ≤ text.count ':')
      (valid : (lib.ipAddress (String.ofList text)).any (!lib.isIPv4 ·) = true)

/-- The digits of a port, that may be none. -/
structure PortText where
  digits : List Char
  chars : ∀ c ∈ digits, c.isDigit = true
  small : Nat.ofDigitChars 10 digits 0 ≤ 65535

variable {lib : UrlLib}

def HostText.text : HostText lib → List Char
  | .name text _ _ => text
  | .address text _ _ _ => '[' :: (text ++ [']'])

/-- What is in the brackets. -/
def HostText.bare : HostText lib → List Char
  | .name text _ _ | .address text _ _ _ => text

def HostText.isName : HostText lib → Bool
  | .name .. => true
  | .address .. => false

/-- The number the digits spell, where there are any. -/
def PortText.number (port : PortText) : Option Nat :=
  if port.digits = [] then none else some (Nat.ofDigitChars 10 port.digits 0)

/-- The port of a number, without zeros in front. -/
def PortText.ofNumber (n : Nat) (h : n ≤ 65535) : PortText where
  digits := Nat.toDigits 10 n
  chars := fun _ hc => Nat.isDigit_of_mem_toDigits (by decide) (by decide) hc
  small := by rwa [Nat.ofDigitChars_toDigits (by decide) (by decide)]

theorem PortText.number_ofNumber {n : Nat} (h : n ≤ 65535) : (PortText.ofNumber n h).number = some n := by
  have hne : (PortText.ofNumber n h).digits ≠ [] := Nat.toDigits_ne_nil
  rw [number, if_neg hne]
  exact congrArg some (Nat.ofDigitChars_toDigits (by decide) (by decide))

theorem PortText.length_ofNumber {n : Nat} (h : n ≤ 65535) : (PortText.ofNumber n h).digits.length ≤ intMaxStrDigits := by
  have hshort : (Nat.toDigits 10 n).length ≤ 5 := (Nat.length_toDigits_le_iff (by decide) (by decide)).mpr (by omega)
  exact hshort.trans (by decide)

theorem PortText.number_le {port : PortText} {n : Nat} (h : port.number = some n) : n ≤ 65535 := by
  rw [number] at h
  split at h
  · cases h
  · rw [← Option.some.inj h]
    exact port.small

/-- A colon and the digits. -/
def portText (port : Option PortText) : List Char := (port.map fun port => ':' :: port.digits).getD []

/-- A colon and a number. -/
def numberText : Option Nat → List Char
  | none => []
  | some n => ':' :: Nat.toDigits 10 n

theorem numberText_chars (n : Option Nat) : ∀ c ∈ numberText n, c.isDigit = true ∨ c = ':' := by
  intro c hc
  cases n with
  | none => cases hc
  | some n =>
    rcases List.mem_cons.mp hc with rfl | hc
    · exact .inr rfl
    · exact .inl (Nat.isDigit_of_mem_toDigits (by decide) (by decide) hc)

theorem not_mem_numberText {c : Char} (hdigit : c.isDigit = false) (hcolon : c ≠ ':') (n : Option Nat) : c ∉ numberText n := by
  intro hin
  rcases numberText_chars n c hin with h | h
  · rw [h] at hdigit
    cases hdigit
  · exact hcolon h

/-- The port with a number. -/
theorem exists_portText {number : Option Nat} (h : ∀ n, number = some n → n ≤ 65535) :
    ∃ port : Option PortText, port.bind PortText.number = number ∧ portText port = numberText number ∧
      ∀ p ∈ port, p.digits.length ≤ intMaxStrDigits := by
  cases number with
  | none => exact ⟨none, rfl, rfl, by simp⟩
  | some n =>
    have hle := h n rfl
    refine ⟨some (PortText.ofNumber n hle), PortText.number_ofNumber hle, rfl, ?_⟩
    intro p hp
    rw [← Option.some.inj hp]
    exact PortText.length_ofNumber hle

/-! In lower case a host is a host of its kind. -/

theorem lower_table {c : Char} (h : c.toNat < 128) : (c.toLower.toNat < 128 ∧ c.toLower.toLower = c.toLower) ∧
    (isNameChar c = true → isNameChar c.toLower = true) ∧ (isAddressChar c = true → isAddressChar c.toLower = true) :=
  @ascii_induction (fun c => (c.toLower.toNat < 128 ∧ c.toLower.toLower = c.toLower) ∧
    (isNameChar c = true → isNameChar c.toLower = true) ∧ (isAddressChar c = true → isAddressChar c.toLower = true))
    (by decide +kernel) c h

theorem toLower_ascii {c : Char} (h : c.toNat < 128) : c.toLower.toNat < 128 := (lower_table h).1.1

theorem toLower_toLower {c : Char} (h : c.toNat < 128) : c.toLower.toLower = c.toLower := (lower_table h).1.2

theorem isNameChar_lower {text : List Char} (h : ∀ c ∈ text, isNameChar c = true) :
    ∀ c ∈ text.map Char.toLower, isNameChar c = true := by
  intro c hc
  obtain ⟨d, hd, rfl⟩ := List.mem_map.mp hc
  exact (lower_table (isAscii_of_isNameChar (h d hd))).2.1 (h d hd)

theorem isAddressChar_lower {text : List Char} (h : ∀ c ∈ text, isAddressChar c = true) :
    ∀ c ∈ text.map Char.toLower, isAddressChar c = true := by
  intro c hc
  obtain ⟨d, hd, rfl⟩ := List.mem_map.mp hc
  exact (lower_table (isAscii_of_isAddressChar (h d hd))).2.2 (h d hd)

theorem colons_lower {text : List Char} (h : 2 ≤ text.count ':') : 2 ≤ (text.map Char.toLower).count ':' :=
  h.trans (@List.count_le_count_map _ _ _ _ _ _ text Char.toLower ':')

theorem HostText.text_chars (host : HostText lib) : ∀ c ∈ host.text, isNetlocChar c = true := by
  intro c hc
  cases host with
  | name text hne hchars => exact isNetlocChar_of_isNameChar (hchars c hc)
  | address text hchars hcolons hvalid =>
    simp only [HostText.text, List.mem_cons, List.mem_append, List.not_mem_nil, or_false] at hc
    rcases hc with rfl | hc | rfl
    · decide
    · exact isNetlocChar_of_isAddressChar (hchars c hc)
    · decide

theorem portText_chars (port : Option PortText) : ∀ c ∈ portText port, isNetlocChar c = true := by
  intro c hc
  cases port with
  | none => cases hc
  | some port =>
    rcases List.mem_cons.mp hc with rfl | hc
    · decide
    · exact isNetlocChar_of_isDigit (port.chars c hc)

theorem not_mem_portText {c : Char} (hcolon : c ≠ ':') (hdigit : c.isDigit = false) (port : Option PortText) : c ∉ portText port := by
  cases port with
  | none => exact List.not_mem_nil
  | some port =>
    simp only [portText, Option.map_some, Option.getD_some, List.mem_cons, not_or]
    exact ⟨hcolon, not_mem_of_all port.chars hdigit⟩

/-- Neither a host nor a port has an at sign. -/
theorem at_not_mem (host : HostText lib) (port : Option PortText) : '@' ∉ host.text ++ portText port := by
  have hhost : '@' ∉ host.text := by
    cases host with
    | name text hne hchars => exact not_mem_of_all hchars (by decide)
    | address text hchars hcolons hvalid =>
      simp only [HostText.text, List.mem_cons, List.mem_append, List.not_mem_nil, or_false, not_or]
      exact ⟨by decide, not_mem_of_all hchars (by decide), by decide⟩
  rw [List.mem_append, not_or]
  exact ⟨hhost, not_mem_portText (by decide) (by decide) port⟩

/-- Brackets stand around an address only. -/
theorem bracket_not_mem {c : Char} (hc : c = '[' ∨ c = ']') {text : List Char} (hchars : ∀ c ∈ text, isNameChar c = true)
    (port : Option PortText) : c ∉ text ++ portText port := by
  rw [List.mem_append, not_or]
  rcases hc with rfl | rfl <;>
    exact ⟨not_mem_of_all hchars (by decide), not_mem_portText (by decide) (by decide) port⟩

theorem HostText.bare_ne_nil (host : HostText lib) : host.bare ≠ [] := by
  cases host with
  | name text hne hchars => exact hne
  | address text hchars hcolons hvalid =>
    intro h
    simp only [HostText.bare] at h
    simp [h] at hcolons

theorem HostText.bare_ascii (host : HostText lib) : ∀ c ∈ host.bare, c.toNat < 128 ∧ c ≠ '%' := by
  intro c hc
  cases host with
  | name text hne hchars =>
    refine ⟨isAscii_of_isNameChar (hchars c hc), ?_⟩
    rintro rfl
    exact absurd (hchars _ hc) (by decide)
  | address text hchars hcolons hvalid =>
    refine ⟨isAscii_of_isAddressChar (hchars c hc), ?_⟩
    rintro rfl
    exact absurd (hchars _ hc) (by decide)

/-! ## Network locations -/

/-- No user is no text to check. -/
theorem no_user_chars : ∀ user' ∈ (none : Option (List Char)), ∀ c ∈ user', isUserChar c = true := by simp

/-- A network location as it is written. The user may be followed by a password. -/
structure Authority (lib : UrlLib) where
  user : Option (List Char)
  host : HostText lib
  port : Option PortText
  user_chars : ∀ user' ∈ user, ∀ c ∈ user', isUserChar c = true

namespace Authority

variable (a : Authority lib)

def userText : List Char := (a.user.map (· ++ ['@'])).getD []

def hostPort : List Char := a.host.text ++ portText a.port

def text : List Char := a.userText ++ a.hostPort

theorem isNetlocChar_of_isUserChar {c : Char} (h : isUserChar c = true) : isNetlocChar c = true := by
  simp only [isUserChar, Bool.and_eq_true] at h
  exact h.1.1.1

theorem userText_chars : ∀ c ∈ a.userText, isNetlocChar c = true ∧ c ≠ '[' ∧ c ≠ ']' := by
  intro c hc
  unfold userText at hc
  cases huser : a.user with
  | none => simp [huser] at hc
  | some user =>
    simp only [huser, Option.map_some, Option.getD_some, List.mem_append, List.mem_singleton] at hc
    rcases hc with hc | rfl
    · have hall := a.user_chars user huser c hc
      refine ⟨isNetlocChar_of_isUserChar hall, ?_, ?_⟩
      · rintro rfl
        exact absurd hall (by decide)
      · rintro rfl
        exact absurd hall (by decide)
    · decide

theorem text_chars : ∀ c ∈ a.text, isNetlocChar c = true := by
  intro c hc
  rcases List.mem_append.mp hc with hc | hc
  · exact (a.userText_chars c hc).1
  rcases List.mem_append.mp hc with hc | hc
  · exact a.host.text_chars c hc
  · exact portText_chars a.port c hc

/-- The last at sign stands behind the user. -/
theorem rpartition_eq : rpartition '@' (String.ofList a.text) =
    (String.ofList (a.user.getD []), a.user.isSome, String.ofList a.hostPort) := by
  have hno : '@' ∉ a.hostPort := at_not_mem a.host a.port
  cases huser : a.user with
  | none =>
    have htext : a.text = a.hostPort := by simp [text, userText, huser]
    rw [htext, rpartition_absent hno]
    simp
  | some user =>
    have htext : a.text = user ++ '@' :: a.hostPort := by simp [text, userText, huser]
    rw [htext, rpartition_append hno]
    rfl

/-- The user of a network location is what stands before its at sign. -/
theorem userinfo_eq {parsed : SplitResult} (h : parsed.netloc = String.ofList a.text) :
    parsed.userinfo = match a.user with
      | none => (none, none)
      | some user =>
        let (username, havePassword, password) := partition ':' (String.ofList user)
        (some username, if havePassword then some password else none) := by
  rw [SplitResult.userinfo, h, rpartition_eq]
  cases a.user <;> rfl

/-- The text of the port, where there is one. -/
def portString (port : Option PortText) : Option String :=
  let text := String.ofList ((port.map (·.digits)).getD [])
  if text = "" then none else some text

/-- What stands behind the colon of a port. -/
theorem partition_portText (port : Option PortText) : (partition ':' (String.ofList (portText port))).2.2 =
    String.ofList ((port.map (·.digits)).getD []) := by
  cases port with
  | none => rfl
  | some port =>
    have hcut := @partition_append ':' [] port.digits List.not_mem_nil
    exact congrArg (·.2.2) hcut

/-- The host and the port are read as they are written. -/
theorem hostinfo_eq {parsed : SplitResult} (h : parsed.netloc = String.ofList a.text) :
    parsed.hostinfo = (String.ofList a.host.bare, portString a.port) := by
  rw [SplitResult.hostinfo, h, rpartition_eq]
  cases hhost : a.host with
  | name text hne hchars =>
    have hopen : '[' ∉ a.hostPort := by
      rw [hostPort, hhost]
      exact bracket_not_mem (.inl rfl) hchars a.port
    have hcolon : ':' ∉ text := not_mem_of_all hchars (by decide)
    have hsplit : partition ':' (String.ofList a.hostPort) =
        (String.ofList text, a.port.isSome, String.ofList ((a.port.map (·.digits)).getD [])) := by
      cases hport : a.port with
      | none =>
        have htext : a.hostPort = text := by simp [hostPort, hhost, hport, portText, HostText.text]
        rw [htext, partition_absent hcolon]
        rfl
      | some port =>
        have htext : a.hostPort = text ++ ':' :: port.digits := by simp [hostPort, hhost, hport, portText, HostText.text]
        rw [htext, partition_append hcolon]
        rfl
    simp only [partition_absent hopen, Bool.false_eq_true, if_false, hsplit]
    rfl
  | address text hchars hcolons hvalid =>
    have htext : a.hostPort = [] ++ '[' :: (text ++ ']' :: portText a.port) := by simp [hostPort, hhost, HostText.text]
    have hclose : ']' ∉ text := not_mem_of_all hchars (by decide)
    rw [htext]
    simp only [partition_append List.not_mem_nil, partition_append hclose, if_true, partition_portText]
    rfl

/-- The brackets are around an address. -/
theorem checkBrackets_ok : checkBrackets lib (String.ofList a.text) = .ok () := by
  have huser : ∀ c, c = '[' ∨ c = ']' → c ∉ a.userText := by
    intro c hc hin
    obtain ⟨-, hopen, hclose⟩ := a.userText_chars c hin
    rcases hc with rfl | rfl
    · exact hopen rfl
    · exact hclose rfl
  cases hhost : a.host with
  | name text hne hchars =>
    have hnone : ∀ c, c = '[' ∨ c = ']' → hasChar c (String.ofList a.text) = false := by
      intro c hc
      have hin : c ∉ a.text := by
        rw [Authority.text, List.mem_append, not_or, hostPort, hhost]
        exact ⟨huser c hc, bracket_not_mem hc hchars a.port⟩
      simpa [hasChar] using hin
    simp [checkBrackets, hnone '[' (.inl rfl), hnone ']' (.inr rfl)]
  | address text hchars hcolons hvalid =>
    have hboth : ∀ c, c = '[' ∨ c = ']' → hasChar c (String.ofList a.text) = true := by
      intro c hc
      have hin : c ∈ a.text := by
        rw [Authority.text, hostPort, hhost]
        rcases hc with rfl | rfl <;> simp [HostText.text]
      simpa [hasChar] using hin
    have htext : a.hostPort = [] ++ '[' :: (text ++ ']' :: portText a.port) := by simp [hostPort, hhost, HostText.text]
    have hclose : ']' ∉ text := not_mem_of_all hchars (by decide)
    have hv : startsWith (String.ofList text) "v" = false := by
      cases text with
      | nil => rfl
      | cons c text =>
        have hne : c ≠ 'v' := by
          rintro rfl
          exact absurd (hchars 'v' List.mem_cons_self) (by decide)
        simp [startsWith, List.isPrefixOf, Ne.symm hne]
    have hport : String.ofList (portText a.port) = "" ∨ startsWith (String.ofList (portText a.port)) ":" = true := by
      cases a.port with
      | none => exact .inl rfl
      | some port => exact .inr (by simp [startsWith, portText, List.isPrefixOf])
    have hbracketed : checkBracketedHost lib (String.ofList text) = .ok () := by
      obtain ⟨ip, hip, hfour⟩ := (Option.any_eq_true _ _).mp hvalid
      rw [checkBracketedHost, hv]
      simp only [Bool.false_eq_true, if_false, hip]
      rw [if_neg (by simpa using hfour)]
    simp only [checkBrackets, hboth '[' (.inl rfl), hboth ']' (.inr rfl), checkBracketedNetloc, rpartition_eq, htext,
      partition_append List.not_mem_nil, partition_append hclose, hbracketed]
    rcases hport with hport | hport <;> simp [hport]

/-- The host name is the host in lower case, without its brackets. -/
theorem hostname_eq (hlower : LowersAscii lib) {parsed : SplitResult} (h : parsed.netloc = String.ofList a.text) :
    parsed.hostname lib = some (String.ofList (a.host.bare.map Char.toLower)) := by
  have hne : String.ofList a.host.bare ≠ "" := fun he => a.host.bare_ne_nil (ofList_eq_empty.mp he)
  have hpercent : '%' ∉ a.host.bare := fun hin => (a.host.bare_ascii _ hin).2 rfl
  have hascii : ∀ c ∈ a.host.bare, c.toNat < 128 := fun c hc => (a.host.bare_ascii c hc).1
  rw [SplitResult.hostname, a.hostinfo_eq h]
  simp only [hne, if_false, partition_absent hpercent, hlower _ hascii]
  simp

/-- The port is the number of its digits, if they are not too many. -/
theorem port_eq {parsed : SplitResult} (h : parsed.netloc = String.ofList a.text) :
    parsed.port =
      if (a.port.all fun port => port.digits.length ≤ intMaxStrDigits) = true then .ok (a.port.bind PortText.number)
      else .error .valueError := by
  rw [SplitResult.port, a.hostinfo_eq h, portString]
  cases hport : a.port with
  | none => rfl
  | some port =>
    obtain ⟨digits, hchars, hsmall⟩ := port
    by_cases hempty : digits = []
    · subst hempty
      rfl
    · have hne : String.ofList digits ≠ "" := fun he => hempty (ofList_eq_empty.mp he)
      have hdigit : ∀ c ∈ digits, isDigitChar c = true := by
        intro c hc
        rw [isDigitChar, decimalValue_ascii (hchars c hc)]
        rfl
      have hisdigit : isdigit digits = true := by
        rw [isdigit, List.all_eq_true.mpr hdigit, Bool.and_true]
        exact bne_iff_ne.mpr hempty
      have hascii : isAsciiText (String.ofList digits) = true := by
        rw [isAsciiText, String.toList_ofList, List.all_eq_true]
        intro c hc
        exact decide_eq_true (isAscii_of_isDigit (hchars c hc))
      by_cases hlength : digits.length ≤ intMaxStrDigits
      · have hint : pyInt digits = some (Nat.ofDigitChars 10 digits 0) := by
          rw [pyInt, if_pos hlength, numeral_ascii hchars]
        simp [hne, hisdigit, hascii, hint, hsmall, hlength, PortText.number, hempty]
      · have hint : pyInt digits = none := by
          rw [pyInt, if_neg hlength]
        simp [hne, hisdigit, hascii, hint, hlength]

end Authority

/-- Without the brackets what stands before the first colon of an address is the host, and the rest
    is no port. -/
theorem hostinfo_unbracketed {address rest : List Char} (hchars : ∀ c ∈ address, isAddressChar c = true)
    (hcolons : 2 ≤ address.count ':') (hrest : '[' ∉ rest) {parsed : SplitResult}
    (hhost : (rpartition '@' parsed.netloc).2.2 = String.ofList (address ++ rest)) :
    ∃ first second, ':' ∉ first ∧ first ⊆ address ∧ ':' ∈ second ∧
      parsed.hostinfo = (String.ofList first, some (String.ofList second)) := by
  have hopen : '[' ∉ address ++ rest := by
    rw [List.mem_append, not_or]
    exact ⟨not_mem_of_all hchars (by decide), hrest⟩
  have hcolon : ':' ∈ address := List.count_pos_iff.mp (by omega)
  obtain ⟨first, second, hfirst, haddress, -⟩ := cut_cases hcolon
  have hsecond : ':' ∈ second := by
    rw [haddress, List.count_append, List.count_eq_zero_of_not_mem hfirst, List.count_cons_self] at hcolons
    exact List.count_pos_iff.mp (by omega)
  refine ⟨first, second ++ rest, hfirst, ?_, List.mem_append_left _ hsecond, ?_⟩
  · rw [haddress]
    exact List.subset_append_left _ _
  · have hsplit : address ++ rest = first ++ ':' :: (second ++ rest) := by simp [haddress]
    have hne : String.ofList (second ++ rest) ≠ "" := by
      intro he
      have hnil := ofList_eq_empty.mp he
      rw [List.append_eq_nil_iff] at hnil
      rw [hnil.1] at hsecond
      cases hsecond
    rw [SplitResult.hostinfo, hhost]
    simp only [partition_absent hopen, Bool.false_eq_true, if_false]
    rw [hsplit, partition_append hfirst]
    simp only [if_neg hne]

/-! ## URLs -/

/-- `urlsplit` drops it. -/
def isLineBreak (c : Char) : Bool := ['\t', '\r', '\n'].contains c

/-- A URL as it is written, with any network location. -/
structure UrlText where
  scheme : List Char
  netloc : List Char
  path : List Char
  query : Option (List Char)
  fragment : Option (List Char)
  scheme_first : scheme.head?.any Char.isAlpha = true
  scheme_chars : ∀ c ∈ scheme, isSchemeChar c = true
  netloc_chars : ∀ c ∈ netloc, isNetlocChar c = true
  path_first : path = [] ∨ path.head? = some '/'
  path_chars : ∀ c ∈ path, c ≠ '?' ∧ c ≠ '#' ∧ isLineBreak c = false
  query_chars : ∀ c ∈ query.getD [], c ≠ '#' ∧ isLineBreak c = false
  fragment_chars : ∀ c ∈ fragment.getD [], isLineBreak c = false

namespace UrlText

variable (u : UrlText)

def queryText : List Char := (u.query.map ('?' :: ·)).getD []

def fragmentText : List Char := (u.fragment.map ('#' :: ·)).getD []

/-- What stands behind the network location. -/
def tail : List Char := u.path ++ u.queryText ++ u.fragmentText

def text : List Char := u.scheme ++ ':' :: '/' :: '/' :: (u.netloc ++ u.tail)

theorem isAlpha_of_head {l : List Char} (h : l.head?.any Char.isAlpha = true) : ∃ c rest, l = c :: rest ∧ c.isAlpha = true := by
  cases l with
  | nil => cases h
  | cons c rest => exact ⟨c, rest, rfl, by simpa using h⟩

theorem not_isLineBreak_of_isNetlocChar {c : Char} (h : isNetlocChar c = true) : isLineBreak c = false := by
  exact ascii_not (fun _ => isAscii_of_isNetlocChar) (by decide +kernel) h

theorem not_isLineBreak_of_isSchemeChar {c : Char} (h : isSchemeChar c = true) : isLineBreak c = false := by
  rw [Bool.eq_false_iff]
  intro hbreak
  have hcases : c = '\t' ∨ c = '\r' ∨ c = '\n' := by simpa [isLineBreak] using hbreak
  rcases hcases with rfl | rfl | rfl <;> exact absurd h (by decide)

theorem tail_unbroken : ∀ c ∈ u.tail, isLineBreak c = false := by
  intro c hc
  rw [tail, List.mem_append, List.mem_append] at hc
  rcases hc with (hc | hc) | hc
  · exact (u.path_chars c hc).2.2
  · have hquery := u.query_chars c
    cases hq : u.query with
    | none => simp [queryText, hq] at hc
    | some query =>
      rw [hq, Option.getD_some] at hquery
      simp only [queryText, hq, Option.map_some, Option.getD_some, List.mem_cons] at hc
      rcases hc with rfl | hc
      · decide
      · exact (hquery hc).2
  · have hfragment := u.fragment_chars c
    cases hf : u.fragment with
    | none => simp [fragmentText, hf] at hc
    | some fragment =>
      rw [hf, Option.getD_some] at hfragment
      simp only [fragmentText, hf, Option.map_some, Option.getD_some, List.mem_cons] at hc
      rcases hc with rfl | hc
      · decide
      · exact hfragment hc

theorem text_unbroken : ∀ c ∈ u.text, isLineBreak c = false := by
  intro c hc
  simp only [text, List.mem_append, List.mem_cons] at hc
  rcases hc with hc | rfl | rfl | rfl | hc | hc
  · exact not_isLineBreak_of_isSchemeChar (u.scheme_chars c hc)
  · decide
  · decide
  · decide
  · exact not_isLineBreak_of_isNetlocChar (u.netloc_chars c hc)
  · exact u.tail_unbroken c hc

/-- Nothing is dropped from a URL as it is written. -/
theorem cleaned : (u.text.dropWhile fun c => decide (c.toNat ≤ 32)).filter (fun c => !(['\t', '\r', '\n'].contains c)) = u.text := by
  obtain ⟨c, rest, hscheme, halpha⟩ := isAlpha_of_head u.scheme_first
  have hhigh : ¬ c.toNat ≤ 32 := by
    intro hlow
    exact absurd halpha (Bool.eq_false_iff.mp (@ascii_induction (fun c => c.toNat ≤ 32 → c.isAlpha = false)
      (by decide +kernel) c (by omega) hlow))
  have htext : u.text = c :: (rest ++ ':' :: '/' :: '/' :: (u.netloc ++ u.tail)) := by
    rw [text, hscheme]
    rfl
  have hdrop : (u.text.dropWhile fun c => decide (c.toNat ≤ 32)) = u.text := by
    rw [htext, List.dropWhile_cons_of_neg (by simpa using hhigh)]
  rw [hdrop]
  apply List.filter_eq_self.mpr
  intro d hd
  have hunbroken := u.text_unbroken d hd
  rw [isLineBreak] at hunbroken
  rw [hunbroken]
  rfl

theorem splitScheme_text {lib : UrlLib} :
    splitScheme lib (String.ofList u.text) =
      (lib.lower (String.ofList u.scheme), String.ofList ('/' :: '/' :: (u.netloc ++ u.tail))) := by
  have hcolon : ':' ∉ u.scheme := not_mem_of_all u.scheme_chars (by decide)
  have hall : u.scheme.all isSchemeChar = true := List.all_eq_true.mpr u.scheme_chars
  rw [splitScheme, text, partition_append hcolon]
  simp [u.scheme_first, hall]

/-- The network location ends where the path, the query or the fragment begins. -/
theorem splitNetloc_text :
    splitNetloc (String.ofList ('/' :: '/' :: (u.netloc ++ u.tail))) = (some (String.ofList u.netloc), String.ofList u.tail) := by
  have hnetloc : ∀ c ∈ u.netloc, (!(['/', '?', '#'].contains c)) = true := by
    intro c hc
    exact @ascii_imp isNetlocChar (fun c => !(['/', '?', '#'].contains c)) (fun _ => isAscii_of_isNetlocChar)
      (by decide +kernel) c (u.netloc_chars c hc)
  have htail : u.tail.takeWhile (fun c => !(['/', '?', '#'].contains c)) = [] := by
    rcases u.path_first with hpath | hpath
    · cases hq : u.query with
      | some query => simp [tail, hpath, queryText, hq]
      | none =>
        cases hf : u.fragment with
        | some fragment => simp [tail, hpath, queryText, hq, fragmentText, hf]
        | none => simp [tail, hpath, queryText, hq, fragmentText, hf]
    · obtain ⟨rest, hrest⟩ : ∃ rest, u.path = '/' :: rest := by
        cases hp : u.path with
        | nil => simp [hp] at hpath
        | cons c rest =>
          rw [hp] at hpath
          exact ⟨rest, by rw [Option.some.inj hpath]⟩
      simp [tail, hrest]
  have htake : (u.netloc ++ u.tail).takeWhile (fun c => !(['/', '?', '#'].contains c)) = u.netloc := by
    rw [List.takeWhile_append_of_pos hnetloc, htail, List.append_nil]
  simp only [splitNetloc, startsWith, String.toList_ofList, List.drop_succ_cons, List.drop_zero, htake, List.drop_left]
  rfl

/-- The rest is cut at the fragment, and then at the query. -/
theorem partition_tail :
    partition '#' (String.ofList u.tail) =
        (String.ofList (u.path ++ u.queryText), u.fragment.isSome, String.ofList (u.fragment.getD [])) ∧
      partition '?' (String.ofList (u.path ++ u.queryText)) =
        (String.ofList u.path, u.query.isSome, String.ofList (u.query.getD [])) := by
  have hhash : '#' ∉ u.path ++ u.queryText := by
    rw [List.mem_append, not_or]
    refine ⟨fun h => (u.path_chars _ h).2.1 rfl, ?_⟩
    have hquery := u.query_chars '#'
    cases hq : u.query with
    | none => simp [queryText, hq]
    | some query =>
      rw [hq, Option.getD_some] at hquery
      simp only [queryText, hq, Option.map_some, Option.getD_some, List.mem_cons, not_or]
      exact ⟨by decide, fun h => (hquery h).1 rfl⟩
  have hmark : '?' ∉ u.path := fun h => (u.path_chars _ h).1 rfl
  constructor
  · cases hf : u.fragment with
    | none =>
      have htail : u.tail = u.path ++ u.queryText := by simp [tail, fragmentText, hf]
      rw [htail, partition_absent hhash]
      rfl
    | some fragment =>
      have htail : u.tail = (u.path ++ u.queryText) ++ '#' :: fragment := by simp [tail, fragmentText, hf]
      rw [htail, partition_append hhash]
      rfl
  · cases hq : u.query with
    | none =>
      have htext : u.path ++ u.queryText = u.path := by simp [queryText, hq]
      rw [htext, partition_absent hmark]
      rfl
    | some query =>
      have htext : u.path ++ u.queryText = u.path ++ '?' :: query := by simp [queryText, hq]
      rw [htext, partition_append hmark]
      rfl

/-- The parts of a URL are read as they are written. -/
theorem urlsplit_written {lib : UrlLib} (h : checkBrackets lib (String.ofList u.netloc) = .ok ()) :
    urlsplit lib (String.ofList u.text) =
      .ok ⟨lib.lower (String.ofList u.scheme), String.ofList u.netloc, String.ofList u.path, String.ofList (u.query.getD []),
        String.ofList (u.fragment.getD [])⟩ := by
  have hascii : isAsciiText (String.ofList u.netloc) = true := by
    rw [isAsciiText, String.toList_ofList, List.all_eq_true]
    intro c hc
    exact decide_eq_true (isAscii_of_isNetlocChar (u.netloc_chars c hc))
  have hchecked : checknetloc lib (String.ofList u.netloc) = .ok () := by
    rw [checknetloc, hascii, Bool.or_true]
    rfl
  obtain ⟨hfragment, hquery⟩ := u.partition_tail
  simp only [urlsplit, String.toList_ofList, u.cleaned, u.splitScheme_text, u.splitNetloc_text, hfragment, hquery]
  simp only [Option.isSome_some, if_true, Option.getD_some, h, hchecked]
  rfl

/-! ## Writing a URL -/

theorem isAscii_of_isSchemeChar {c : Char} (h : isSchemeChar c = true) : c.toNat < 128 := by
  have hbelow {high : UInt32} (h : c.val ≤ high) (hhigh : high.toNat < 128) : c.toNat < 128 :=
    lt_of_le_of_lt (UInt32.le_iff_toNat_le.mp h) hhigh
  simp only [isSchemeChar, Bool.or_eq_true, beq_iff_eq, Char.isAlphanum] at h
  rcases h with (((h | h) | rfl) | rfl) | rfl
  · rcases Bool.or_eq_true_iff.mp h with h | h
    · exact hbelow (of_decide_eq_true h).2 (by decide)
    · exact hbelow (of_decide_eq_true (Bool.and_eq_true_iff.mp h).2) (by decide)
  · exact hbelow (of_decide_eq_true (Bool.and_eq_true_iff.mp h).2) (by decide)
  all_goals decide

/-- An empty part is not written. -/
def notEmpty (part : Option (List Char)) : Option (List Char) := if part.getD [] = [] then none else part

theorem notEmpty_getD (part : Option (List Char)) : (notEmpty part).getD [] = part.getD [] := by
  by_cases h : part.getD [] = []
  · rw [notEmpty, if_pos h, h]
    rfl
  · rw [notEmpty, if_neg h]

/-- A separator and a part, unless the part is empty. -/
theorem append_notEmpty (sep : Char) (part : Option (List Char)) (url : String) :
    (if String.ofList (part.getD []) ≠ "" then url ++ String.ofList [sep] ++ String.ofList (part.getD []) else url) =
      url ++ String.ofList (((notEmpty part).map (sep :: ·)).getD []) := by
  by_cases h : part.getD [] = []
  · simp [notEmpty, h]
  · have hne : String.ofList (part.getD []) ≠ "" := fun he => h (ofList_eq_empty.mp he)
    cases part with
    | none => exact absurd rfl h
    | some text =>
      rw [if_pos hne, notEmpty, if_neg h, ← String.toList_inj]
      simp

/-- In lower case a scheme is a scheme. -/
theorem lowered_scheme {name : List Char} (hname : name.head?.any Char.isAlpha = true)
    (hchars : ∀ c ∈ name, isSchemeChar c = true) :
    (name.map Char.toLower).head?.any Char.isAlpha = true ∧ ∀ c ∈ name.map Char.toLower, isSchemeChar c = true := by
  constructor
  · obtain ⟨c, rest, rfl, halpha⟩ := isAlpha_of_head hname
    have hlower := @ascii_imp Char.isAlpha (·.toLower.isAlpha)
      (fun c hc => isAscii_of_isSchemeChar (by simp [isSchemeChar, Char.isAlphanum, hc])) (by decide +kernel) c halpha
    simpa using hlower
  · intro c hc
    obtain ⟨d, hd, rfl⟩ := List.mem_map.mp hc
    exact @ascii_imp isSchemeChar (isSchemeChar ·.toLower) (fun _ => isAscii_of_isSchemeChar) (by decide +kernel) d (hchars d hd)

/-- The URL with its scheme in lower case and another network location. An empty query or fragment
    is not written. -/
def withNetloc (netloc : List Char) (hchars : ∀ c ∈ netloc, isNetlocChar c = true) : UrlText where
  scheme := u.scheme.map Char.toLower
  netloc := netloc
  path := u.path
  query := notEmpty u.query
  fragment := notEmpty u.fragment
  scheme_first := (lowered_scheme u.scheme_first u.scheme_chars).1
  scheme_chars := (lowered_scheme u.scheme_first u.scheme_chars).2
  netloc_chars := hchars
  path_first := u.path_first
  path_chars := u.path_chars
  query_chars := by
    rw [notEmpty_getD]
    exact u.query_chars
  fragment_chars := by
    rw [notEmpty_getD]
    exact u.fragment_chars

/-- `urlunsplit` writes the parts. -/
theorem urlunsplit_written {netloc : List Char} (hchars : ∀ c ∈ netloc, isNetlocChar c = true) (hne : netloc ≠ []) :
    urlunsplit ⟨String.ofList (u.scheme.map Char.toLower), String.ofList netloc, String.ofList u.path,
      String.ofList (u.query.getD []), String.ofList (u.fragment.getD [])⟩ = String.ofList (u.withNetloc netloc hchars).text := by
  have hscheme : String.ofList (u.scheme.map Char.toLower) ≠ "" := by
    intro he
    obtain ⟨c, rest, hscheme, -⟩ := isAlpha_of_head u.scheme_first
    have hnil := ofList_eq_empty.mp he
    rw [hscheme] at hnil
    cases hnil
  have hnetloc : String.ofList netloc ≠ "" := fun he => hne (ofList_eq_empty.mp he)
  have hpath : (decide (String.ofList u.path ≠ "") && !startsWith (String.ofList u.path) "/") = false := by
    rcases u.path_first with hpath | hpath
    · simp [hpath]
    · have hstarts : startsWith (String.ofList u.path) "/" = true := by
        cases hp : u.path with
        | nil =>
          rw [hp] at hpath
          cases hpath
        | cons c rest =>
          rw [hp] at hpath
          simp [startsWith, List.isPrefixOf, Option.some.inj hpath]
      rw [hstarts]
      simp
  have hquery := append_notEmpty '?' u.query
  have hfragment := append_notEmpty '#' u.fragment
  have hmarks : "?" = String.ofList ['?'] ∧ "#" = String.ofList ['#'] := ⟨rfl, rfl⟩
  simp only [urlunsplit, hmarks.1, hmarks.2, hquery, hfragment, hnetloc, hscheme, hpath, ne_eq, not_false_eq_true, if_true,
    Bool.false_eq_true, if_false]
  rw [← String.toList_inj]
  simp [text, tail, queryText, fragmentText, withNetloc]

end UrlText

end Imghost.Web
