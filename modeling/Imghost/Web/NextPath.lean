/-
  Imghost.Web.NextPath — where the login form goes afterwards: `normalize_next_path` and the
  submit handler of `auth.js`.

  The path is checked as `urlsplit` reads it, and followed as a browser does. The two differ
  on what comes after the first slash: for a browser a backslash is a second one, and a
  second slash that a tab or a line break hides from `startswith` begins an authority even
  where `urlsplit` finds none, since the browser skips the slashes that follow.

  - `redirect_stays_iff`: the form stays on the site exactly when no such second slash is
    accepted, or the authority behind it is the site's own.
  - `a_backslash_leaves_the_site`: `/\evil.example` goes to `evil.example`.
-/

import Imghost.Web.Navigation
import Imghost.Web.Url

namespace Imghost.Web

open Imghost.Data Imghost.Model

/-! ## The path -/

/-- `normalize_next_path`. -/
def normalizeNextPath (lib : UrlLib) (nextPath : Option String) (default : String) : Except UrlExc String :=
  let candidate := strip (nextPath.getD "")
  if candidate = "" then .ok default
  else if !startsWith candidate "/" then .ok default
  else if startsWith candidate "//" then .ok default
  else
    match urlsplit lib candidate with
    | .error e => .error e
    | .ok parsed => .ok (if parsed.scheme ≠ "" || parsed.netloc ≠ "" then default else candidate)

/-- The argument of `window.location.assign`: `form.dataset.successUrl || "/dashboard"`. -/
def assignedUrl (successUrl : String) : String := if successUrl = "" then "/dashboard" else successUrl

/-- The path as `urlsplit` reads it has no host: no second slash, or nothing of a host after it. -/
def NoHost (tail : List Char) : Prop := ∀ rest, tail = '/' :: rest → ∀ c ∈ rest.head?, c = '/' ∨ c = '?' ∨ c = '#'

/-- The candidate is accepted, and a browser reads a second slash in it, with `rest` from there on. -/
structure SecondSlash (candidate : String) (rest : List Char) : Prop where
  rooted : startsWith candidate "/" = true
  single : startsWith candidate "//" = false
  browser : cleanInput candidate.toList = '/' :: rest
  slash : rest.head?.any isSlash = true
  no_host : NoHost ((candidate.toList.drop 1).filter (!isBreak ·))

/-! ## What is accepted -/

variable {lib : UrlLib} {candidate : String}

theorem exists_tail (h : startsWith candidate "/" = true) : ∃ tail, candidate.toList = '/' :: tail := by
  cases htext : candidate.toList with
  | nil => simp [startsWith, htext] at h
  | cons c tail =>
    have hc : '/' = c := by simpa [startsWith, htext, List.isPrefixOf] using h
    exact ⟨tail, hc ▸ rfl⟩

theorem splitScheme_slash (tail : List Char) :
    splitScheme lib (String.ofList ('/' :: tail)) = ("", String.ofList ('/' :: tail)) := by
  have hhead : (('/' :: tail).takeWhile (· != ':')).head?.any Char.isAlpha = false := by
    rw [List.takeWhile_cons_of_pos (by decide)]
    rfl
  simp only [splitScheme, partition, cut, String.toList_ofList, hhead, Bool.and_false, Bool.false_and, Bool.false_eq_true,
    if_false]

/-- What `urlsplit` keeps of a path: nothing is dropped before the slash. -/
theorem unbroken_slash (tail : List Char) :
    (('/' :: tail).dropWhile fun c => c.toNat ≤ 32).filter (fun c => !(['\t', '\r', '\n'].contains c)) =
      '/' :: tail.filter (!isBreak ·) := by
  have hfilter : ∀ c : Char, (!(['\t', '\r', '\n'].contains c)) = !isBreak c := by
    intro c
    simp only [List.contains_cons, List.contains_nil, Bool.or_false, isBreak]
    cases c == '\t' <;> cases c == '\r' <;> cases c == '\n' <;> rfl
  rw [List.dropWhile_cons_of_neg (by decide)]
  simp only [hfilter]
  rw [List.filter_cons_of_pos (by decide)]

theorem splitNetloc_slash (tail : List Char) :
    (splitNetloc (String.ofList ('/' :: tail))).1 =
      match tail with
      | '/' :: rest => some (String.ofList (rest.takeWhile fun c => !(['/', '?', '#'].contains c)))
      | _ => none := by
  unfold splitNetloc startsWith
  rw [String.toList_ofList]
  split
  · rename_i hslashes
    cases tail with
    | nil => simp [List.isPrefixOf] at hslashes
    | cons c rest =>
      have hc : '/' = c := by simpa [List.isPrefixOf] using hslashes
      subst hc
      simp only [String.toList_ofList]
      rfl
  · rename_i hslashes
    cases tail with
    | nil => rfl
    | cons c rest =>
      have hc : '/' ≠ c := by simpa [List.isPrefixOf] using hslashes
      split
      · rename_i rest' hcons
        exact absurd (List.cons.inj hcons).1.symm hc
      · rfl

theorem checkBrackets_empty : checkBrackets lib "" = .ok () := rfl

theorem checknetloc_empty : checknetloc lib "" = .ok () := rfl

/-- The parts of a path: no scheme, and the network location behind a second slash. -/
theorem urlsplit_slash {tail : List Char} (h : candidate.toList = '/' :: tail) {netloc : Option String}
    (hnetloc : (splitNetloc (String.ofList ('/' :: tail.filter (!isBreak ·)))).1 = netloc) :
    (netloc.getD "" = "" → ∃ parsed, urlsplit lib candidate = .ok parsed ∧ parsed.scheme = "" ∧ parsed.netloc = "") ∧
      ∀ parsed, urlsplit lib candidate = .ok parsed → parsed.netloc = netloc.getD "" := by
  have hurl := unbroken_slash tail
  subst hnetloc
  rcases hsplit : splitNetloc (String.ofList ('/' :: tail.filter (!isBreak ·))) with ⟨netloc, url⟩
  simp only [urlsplit, h, hurl, splitScheme_slash, hsplit]
  constructor
  · intro hempty
    rw [hempty, checkBrackets_empty, checknetloc_empty]
    cases netloc.isSome <;> exact ⟨_, rfl, rfl, rfl⟩
  · intro parsed hparsed
    generalize checkBrackets lib (netloc.getD "") = brackets at hparsed
    generalize checknetloc lib (netloc.getD "") = checked at hparsed
    generalize netloc.isSome = present at hparsed
    cases present <;> cases brackets <;> cases checked <;> cases hparsed <;> rfl

theorem netloc_empty_iff (tail : List Char) :
    (splitNetloc (String.ofList ('/' :: tail))).1.getD "" = "" ↔ NoHost tail := by
  rw [splitNetloc_slash]
  have hends : ∀ c : Char, (['/', '?', '#'].contains c) = true ↔ c = '/' ∨ c = '?' ∨ c = '#' := by
    intro c
    simp
  split
  · rename_i rest
    rw [Option.getD_some]
    constructor
    · intro hempty rest' hrest c hc
      obtain rfl := (List.cons.inj hrest).2
      cases rest with
      | nil => cases hc
      | cons c' rest =>
        obtain rfl := Option.some.inj hc
        rw [← hends]
        by_contra hnot
        rw [Bool.not_eq_true] at hnot
        rw [List.takeWhile_cons_of_pos (by rw [hnot]; rfl)] at hempty
        exact absurd (String.ofList_injective (hempty.trans rfl : _ = String.ofList [])) (by simp)
    · intro hnohost
      cases rest with
      | nil => rfl
      | cons c rest =>
        have hc := (hends c).mpr (hnohost _ rfl c rfl)
        rw [List.takeWhile_cons_of_neg (by rw [hc]; decide)]
  · rename_i hnot
    refine ⟨fun _ rest hrest => absurd hrest (hnot rest), fun _ => rfl⟩

/-- A rooted candidate is accepted exactly when `urlsplit` finds no host in it. -/
theorem normalizeNextPath_rooted {nextPath : Option String} {default : String} (hcandidate : strip (nextPath.getD "") = candidate)
    {tail : List Char} (htail : candidate.toList = '/' :: tail) (hsingle : startsWith candidate "//" = false) :
    (NoHost (tail.filter (!isBreak ·)) → normalizeNextPath lib nextPath default = .ok candidate) ∧
      (¬ NoHost (tail.filter (!isBreak ·)) → ∀ value, normalizeNextPath lib nextPath default = .ok value → value = default) := by
  have hne : candidate ≠ "" := by
    intro hempty
    rw [hempty] at htail
    cases htail
  have hrooted : startsWith candidate "/" = true := by
    rw [startsWith, htail]
    rfl
  obtain ⟨hnone, hsome⟩ := @urlsplit_slash lib candidate tail htail _ rfl
  rw [netloc_empty_iff] at hnone
  unfold normalizeNextPath
  dsimp only
  rw [hcandidate, if_neg hne, hrooted, if_neg (by decide), hsingle, if_neg (by decide)]
  constructor
  · intro hnohost
    obtain ⟨parsed, hparsed, hscheme, hnetloc⟩ := hnone hnohost
    rw [hparsed]
    dsimp only
    rw [hscheme, hnetloc]
    rfl
  · intro hhost value hvalue
    cases hparsed : urlsplit lib candidate with
    | error e =>
      rw [hparsed] at hvalue
      cases hvalue
    | ok parsed =>
      have hnetloc : parsed.netloc ≠ "" := by
        rw [hsome parsed hparsed, ne_eq, netloc_empty_iff]
        exact hhost
      rw [hparsed] at hvalue
      dsimp only at hvalue
      rw [if_pos (by simp [hnetloc])] at hvalue
      exact (Except.ok.inj hvalue).symm

/-- Anything else is replaced. -/
theorem normalizeNextPath_other {nextPath : Option String} {default : String} (hcandidate : strip (nextPath.getD "") = candidate)
    (h : ¬ (startsWith candidate "/" = true ∧ startsWith candidate "//" = false)) :
    normalizeNextPath lib nextPath default = .ok default := by
  unfold normalizeNextPath
  dsimp only
  rw [hcandidate]
  split
  · rfl
  split
  · rfl
  split
  · rfl
  · simp_all

/-! ## Where it leads -/

variable {Host : Type} {parseHost : List Char → Option Host} {site : WebOrigin Host}

theorem dashboard_stays : resolve parseHost site (assignedUrl "/dashboard").toList = .web site := by
  have hclean : cleanInput (assignedUrl "/dashboard").toList = '/' :: "dashboard".toList := by decide +kernel
  rw [resolve_slash hclean]
  rfl

/-- After a login the form stays on the site, whatever the `next` parameter: or a second slash
    was accepted, with the authority of another site, or of none, behind it. -/
theorem redirect_stays_iff {Host : Type} (parseHost : List Char → Option Host) (lib : UrlLib) (site : WebOrigin Host)
    (nextPath : Option String) :
    (∀ value, normalizeNextPath lib nextPath "/dashboard" = .ok value →
        resolve parseHost site (assignedUrl value).toList = .web site) ↔
      ∀ rest, SecondSlash (strip (nextPath.getD "")) rest →
        authority parseHost site.scheme (rest.dropWhile isSlash) = .web site := by
  generalize hcandidate : strip (nextPath.getD "") = candidate
  have hassigned : ∀ tail, candidate.toList = '/' :: tail → assignedUrl candidate = candidate := by
    intro tail htail
    rw [assignedUrl, if_neg]
    rintro rfl
    cases htail
  constructor
  · intro h rest hsecond
    obtain ⟨tail, htail⟩ := exists_tail hsecond.rooted
    have hnohost := hsecond.no_host
    rw [htail, List.drop_succ_cons, List.drop_zero] at hnohost
    have hresolved := h candidate ((normalizeNextPath_rooted hcandidate htail hsecond.single).1 hnohost)
    rw [hassigned tail htail, resolve_slash hsecond.browser, relativeSlash, if_pos hsecond.slash] at hresolved
    exact hresolved
  · intro h value hvalue
    by_cases hplain : startsWith candidate "/" = true ∧ startsWith candidate "//" = false
    · obtain ⟨tail, htail⟩ := exists_tail hplain.1
      obtain ⟨haccepted, hreplaced⟩ := @normalizeNextPath_rooted lib candidate nextPath "/dashboard" hcandidate tail htail hplain.2
      by_cases hnohost : NoHost (tail.filter (!isBreak ·))
      · cases (haccepted hnohost).symm.trans hvalue
        obtain ⟨rest, hbrowser⟩ := cleanInput_slash tail
        rw [← htail] at hbrowser
        rw [hassigned tail htail, resolve_slash hbrowser, relativeSlash]
        split
        · rename_i hslash
          exact h rest ⟨hplain.1, hplain.2, hbrowser, hslash, by rw [htail]; exact hnohost⟩
        · rfl
      · rw [hreplaced hnohost value hvalue]
        exact dashboard_stays
    · cases (normalizeNextPath_other hcandidate hplain).symm.trans hvalue
      exact dashboard_stays

namespace NextSample

/-- Names in lower case; nothing else is a host. -/
def parseName (text : List Char) : Option String :=
  if text.all fun c => c.isAlphanum || c == '.' || c == '-' then some (String.ofList (text.map Char.toLower)) else none

def images : WebOrigin String := ⟨.https, "images.example", none⟩

/-- Without IDNA and addresses, which the samples do not have. -/
def asciiLib : UrlLib where
  lower text := String.ofList (text.toList.map Char.toLower)
  nfkc text := text
  IpAddress := Empty
  ipAddress _ := none
  isIPv4 address := nomatch address
  str address := nomatch address
  inNetwork address _ := nomatch address

end NextSample

open NextSample in
/-- A path stays; a backslash, or a tab between slashes, leads to another site. -/
theorem a_backslash_leaves_the_site :
    normalizeNextPath asciiLib (some "/album/a") "/dashboard" = .ok "/album/a" ∧
      resolve parseName images (assignedUrl "/album/a").toList = .web images ∧
      normalizeNextPath asciiLib (some "/\\evil.example") "/dashboard" = .ok "/\\evil.example" ∧
      resolve parseName images (assignedUrl "/\\evil.example").toList = .web ⟨.https, "evil.example", none⟩ ∧
      normalizeNextPath asciiLib (some "/\t//evil.example") "/dashboard" = .ok "/\t//evil.example" ∧
      resolve parseName images (assignedUrl "/\t//evil.example").toList = .web ⟨.https, "evil.example", none⟩ := by
  decide +kernel

end Imghost.Web
