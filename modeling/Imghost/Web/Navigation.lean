/-
  Imghost.Web.Navigation — where a browser goes from a page of a site: the URL parser of the
  WHATWG, as far as the origin of its result.

  Spaces and control characters at the ends and all tabs and line breaks are dropped first;
  in the URL of an http or https page a backslash is a slash. After two slashes comes an
  authority, however many more there are. The host parser stays a parameter.

  - `resolve_slash`: a reference that begins with one slash.
-/

import Mathlib.Data.Nat.Digits.Defs
import Imghost.Data.Trim

namespace Imghost.Web

open Imghost.Data

inductive WebScheme where
  | http
  | https
  deriving DecidableEq, Repr

/-- The origin of a site; `none` is the default port of its scheme. -/
structure WebOrigin (Host : Type) where
  scheme : WebScheme
  host : Host
  port : Option Nat
  deriving DecidableEq, Repr

/-- What a reference leads to: an error, an origin of http or https, or anything else. -/
inductive Destination (Host : Type) where
  | failure
  | web (origin : WebOrigin Host)
  | elsewhere
  deriving DecidableEq, Repr

def isControlOrSpace (c : Char) : Bool := c.toNat ≤ 32

def isBreak (c : Char) : Bool := c == '\t' || c == '\n' || c == '\r'

def isSlash (c : Char) : Bool := c == '/' || c == '\\'

def endsAuthority (c : Char) : Bool := isSlash c || c == '?' || c == '#'

/-- The input that the parser reads. -/
def cleanInput (input : List Char) : List Char := (trim isControlOrSpace input).filter (!isBreak ·)

def WebScheme.defaultPort : WebScheme → Nat
  | .http => 80
  | .https => 443

def WebScheme.name : WebScheme → List Char
  | .http => ['h', 't', 't', 'p']
  | .https => ['h', 't', 't', 'p', 's']

section

variable {Host : Type} (parseHost : List Char → Option Host)

/-! ## Authorities -/

/-- The host and the text after the colon that ends it, if one does; a colon between brackets does not. -/
def splitPort : Bool → List Char → List Char × Option (List Char)
  | _, [] => ([], none)
  | inside, c :: rest =>
    if c = ':' && !inside then ([], some rest)
    else
      let (host, port) := splitPort (if c = '[' then true else if c = ']' then false else inside) rest
      (c :: host, port)

/-- The port; `none` when the parser fails. -/
def parsePort (scheme : WebScheme) : Option (List Char) → Option (Option Nat)
  | none => some none
  | some text =>
    if !text.all Char.isDigit then none
    else if text = [] then some none
    else
      let port := Nat.ofDigitChars 10 text 0
      if 65535 < port then none else some (if port = scheme.defaultPort then none else some port)

/-- The authority at the start of a text, without the slashes before it. -/
def authority (scheme : WebScheme) (text : List Char) : Destination Host :=
  let text := text.takeWhile (!endsAuthority ·)
  let hostAndPort := (text.reverse.takeWhile (· != '@')).reverse
  let (host, port) := splitPort false hostAndPort
  if host = [] then .failure
  else
    match parseHost host, parsePort scheme port with
    | some host, some port => .web ⟨scheme, host, port⟩
    | _, _ => .failure

/-! ## References -/

/-- A scheme and the text after its colon. -/
def schemeOf (text : List Char) : Option (List Char × List Char) :=
  let isSchemeChar := fun c : Char => c.isAlphanum || c == '+' || c == '-' || c == '.'
  match text.dropWhile isSchemeChar with
  | ':' :: rest =>
    if (text.head?.any Char.isAlpha) then some ((text.takeWhile isSchemeChar).map Char.toLower, rest) else none
  | _ => none

variable (site : WebOrigin Host)

/-- The relative slash state. -/
def relativeSlash (rest : List Char) : Destination Host :=
  if rest.head?.any isSlash then authority parseHost site.scheme (rest.dropWhile isSlash) else .web site

/-- The relative state. -/
def relative : List Char → Destination Host
  | [] => .web site
  | c :: rest => if isSlash c then relativeSlash parseHost site rest else .web site

/-- Where a reference on a page of the site leads. -/
def resolve (reference : List Char) : Destination Host :=
  let text := cleanInput reference
  match schemeOf text with
  | none => relative parseHost site text
  | some (scheme, rest) =>
    if scheme = site.scheme.name then
      if ['/', '/'].isPrefixOf rest then authority parseHost site.scheme (rest.dropWhile isSlash) else relative parseHost site rest
    else if scheme = WebScheme.http.name then authority parseHost .http (rest.dropWhile isSlash)
    else if scheme = WebScheme.https.name then authority parseHost .https (rest.dropWhile isSlash)
    else .elsewhere

variable {parseHost site}

theorem resolve_slash {reference rest : List Char} (h : cleanInput reference = '/' :: rest) :
    resolve parseHost site reference = relativeSlash parseHost site rest := by
  have hscheme : schemeOf ('/' :: rest) = none := by
    rw [schemeOf, List.dropWhile_cons_of_neg (by decide)]
    split
    · rename_i hcolon
      exact absurd (List.cons.inj hcolon).1 (by decide)
    · rfl
  rw [resolve, h]
  simp only [hscheme]
  rw [relative, if_pos (by decide)]

end

/-! ## What cleaning leaves -/

/-- A slash at the start stays. -/
theorem cleanInput_slash (tail : List Char) : ∃ rest, cleanInput ('/' :: tail) = '/' :: rest := by
  obtain ⟨rest, hrest⟩ : ∃ rest, trim isControlOrSpace ('/' :: tail) = '/' :: rest := by
    rw [trim, List.dropWhile_cons_of_neg (by decide)]
    cases htrim : ('/' :: tail).rdropWhile isControlOrSpace with
    | nil =>
      have hall := List.rdropWhile_eq_nil_iff.mp htrim '/' List.mem_cons_self
      exact absurd hall (by decide)
    | cons c rest =>
      obtain ⟨dropped, happend⟩ := List.rdropWhile_prefix isControlOrSpace (l := '/' :: tail)
      rw [htrim, List.cons_append] at happend
      exact ⟨rest, by rw [(List.cons.inj happend).1]⟩
  refine ⟨rest.filter (!isBreak ·), ?_⟩
  rw [cleanInput, hrest, List.filter_cons_of_pos (by decide)]

end Imghost.Web
