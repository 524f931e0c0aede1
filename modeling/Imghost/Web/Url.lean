/-
  Imghost.Web.Url — `urllib.parse.urlsplit`, `urlunsplit` and the parts of a network location.

  A URL that cannot be split raises `ValueError`: a bracket without its counterpart, a
  bracketed host that is no IPv6 address, a host with characters that NFKC turns into
  delimiters. `str.lower`, NFKC and `ipaddress` stay parameters (`UrlLib`).
-/

import Imghost.Data.Trim
import Imghost.Model.Digits

namespace Imghost.Web

open Imghost.Model Imghost.Data

inductive UrlExc where
  | valueError
  deriving DecidableEq, Repr

structure UrlLib where
  lower : String → String
  /-- `unicodedata.normalize("NFKC", text)`. -/
  nfkc : String → String
  IpAddress : Type
  /-- `ipaddress.ip_address(text)`; `none` when it raises `ValueError`. -/
  ipAddress : String → Option IpAddress
  isIPv4 : IpAddress → Bool
  /-- `str(address)`. -/
  str : IpAddress → String
  /-- `address in ip_network(cidr, strict=False)`, of a network that `load_settings` has parsed. -/
  inNetwork : IpAddress → String → Bool

/-! ## str -/

/-- `text.partition(sep)`. -/
def partition (sep : Char) (text : String) : String × Bool × String :=
  let (before, found, after) := cut sep text.toList
  (String.ofList before, found, String.ofList after)

/-- `text.rpartition(sep)`. -/
def rpartition (sep : Char) (text : String) : String × Bool × String :=
  let (after, found, before) := cut sep text.toList.reverse
  if found then (String.ofList before.reverse, true, String.ofList after.reverse) else ("", false, text)

/-- `char in text`. -/
def hasChar (c : Char) (text : String) : Bool := text.toList.contains c

def isAsciiText (text : String) : Bool := text.toList.all (·.toNat < 128)

/-! ## urlsplit -/

structure SplitResult where
  scheme : String
  netloc : String
  path : String
  query : String
  fragment : String
  deriving DecidableEq, Repr

/-- `[A-Za-z0-9+.-]`. -/
def isSchemeChar (c : Char) : Bool := c.isAlphanum || c == '+' || c == '-' || c == '.'

/-- `\Av[a-fA-F0-9]+\..+\Z`, of a text that begins with `v`. -/
def isIPvFuture (hostname : String) : Bool :=
  let hex := (hostname.toList.drop 1).takeWhile fun c => c.isDigit || ('a' ≤ c && c ≤ 'f') || ('A' ≤ c && c ≤ 'F')
  match (hostname.toList.drop 1).drop hex.length with
  | '.' :: rest => hex != [] && rest != [] && !rest.contains '\n'
  | _ => false

variable (lib : UrlLib)

/-- `_check_bracketed_host`. -/
def checkBracketedHost (hostname : String) : Except UrlExc Unit :=
  if startsWith hostname "v" then
    if isIPvFuture hostname then .ok () else .error .valueError
  else
    match lib.ipAddress hostname with
    | none => .error .valueError
    | some ip => if lib.isIPv4 ip then .error .valueError else .ok ()

/-- `_check_bracketed_netloc`. -/
def checkBracketedNetloc (netloc : String) : Except UrlExc Unit :=
  let hostnameAndPort := (rpartition '@' netloc).2.2
  let (beforeBracket, haveOpenBr, bracketed) := partition '[' hostnameAndPort
  if haveOpenBr then
    let (hostname, _, port) := partition ']' bracketed
    if beforeBracket ≠ "" then .error .valueError
    else if port ≠ "" && !startsWith port ":" then .error .valueError
    else checkBracketedHost lib hostname
  else checkBracketedHost lib (partition ':' hostnameAndPort).1

/-- `_checknetloc`. -/
def checknetloc (netloc : String) : Except UrlExc Unit :=
  if netloc = "" || isAsciiText netloc then .ok ()
  else
    let n := String.ofList (netloc.toList.filter fun c => !(['@', ':', '#', '?'].contains c))
    let normalized := lib.nfkc n
    if n = normalized then .ok ()
    else if ['/', '?', '#', '@', ':'].any (hasChar · normalized) then .error .valueError
    else .ok ()

/-- The brackets of a network location. -/
def checkBrackets (netloc : String) : Except UrlExc Unit :=
  if hasChar '[' netloc != hasChar ']' netloc then .error .valueError
  else if hasChar '[' netloc then checkBracketedNetloc lib netloc
  else .ok ()

/-- The scheme of a URL, in lower case, and the rest. -/
def splitScheme (url : String) : String × String :=
  let (scheme, colon, rest) := partition ':' url
  if colon && (scheme.toList.head?.any Char.isAlpha) && scheme.toList.all isSchemeChar then (lib.lower scheme, rest)
  else ("", url)

/-- The network location of a URL without scheme, if it has one, and the rest. -/
def splitNetloc (url : String) : Option String × String :=
  if startsWith url "//" then
    let rest := url.toList.drop 2
    let netloc := rest.takeWhile fun c => !(['/', '?', '#'].contains c)
    (some (String.ofList netloc), String.ofList (rest.drop netloc.length))
  else (none, url)

/-- `urlsplit(url)`. -/
def urlsplit (url : String) : Except UrlExc SplitResult := do
  let url := url.toList.dropWhile fun c => c.toNat ≤ 32
  let url := String.ofList (url.filter fun c => !(['\t', '\r', '\n'].contains c))
  let (scheme, url) := splitScheme lib url
  let (netloc, url) := splitNetloc url
  if netloc.isSome then checkBrackets lib (netloc.getD "")
  let (url, _, fragment) := partition '#' url
  let (url, _, query) := partition '?' url
  checknetloc lib (netloc.getD "")
  return { scheme := scheme, netloc := netloc.getD "", path := url, query := query, fragment := fragment }

/-- `uses_netloc`. -/
def usesNetloc : List String :=
  ["", "ftp", "http", "gopher", "nntp", "telnet", "imap", "wais", "file", "mms", "https", "shttp", "snews", "prospero",
    "rtsp", "rtsps", "rtspu", "rsync", "svn", "svn+ssh", "sftp", "nfs", "git", "git+ssh", "ws", "wss", "itms-services"]

/-- `urlunsplit(parts)`. -/
def urlunsplit (parts : SplitResult) : String :=
  let url :=
    if parts.netloc ≠ "" then
      "//" ++ parts.netloc ++ (if parts.path ≠ "" && !startsWith parts.path "/" then "/" ++ parts.path else parts.path)
    else if startsWith parts.path "//" then "//" ++ parts.path
    else if parts.scheme ≠ "" && usesNetloc.contains parts.scheme && (parts.path = "" || startsWith parts.path "/") then
      "//" ++ parts.path
    else parts.path
  let url := if parts.scheme ≠ "" then parts.scheme ++ ":" ++ url else url
  let url := if parts.query ≠ "" then url ++ "?" ++ parts.query else url
  if parts.fragment ≠ "" then url ++ "#" ++ parts.fragment else url

namespace SplitResult

variable (r : SplitResult)

/-- `_userinfo`: the user name and the password. -/
def userinfo : Option String × Option String :=
  let (userinfo, haveInfo, _) := rpartition '@' r.netloc
  if haveInfo then
    let (username, havePassword, password) := partition ':' userinfo
    (some username, if havePassword then some password else none)
  else (none, none)

/-- `_hostinfo`: the host name and the port. -/
def hostinfo : String × Option String :=
  let hostinfo := (rpartition '@' r.netloc).2.2
  let (_, haveOpenBr, bracketed) := partition '[' hostinfo
  let (hostname, port) :=
    if haveOpenBr then
      let (hostname, _, port) := partition ']' bracketed
      (hostname, (partition ':' port).2.2)
    else
      let (hostname, _, port) := partition ':' hostinfo
      (hostname, port)
  (hostname, if port = "" then none else some port)

/-- `parsed.hostname`: in lower case up to the zone of an address. -/
def hostname : Option String :=
  let host := r.hostinfo.1
  if host = "" then none
  else
    let (name, percent, zone) := partition '%' host
    some (lib.lower name ++ (if percent then "%" else "") ++ zone)

/-- `parsed.port`. -/
def port : Except UrlExc (Option Nat) :=
  match r.hostinfo.2 with
  | none => .ok none
  | some port =>
    if isdigit port.toList && isAsciiText port then
      match pyInt port.toList with
      | none => .error .valueError
      | some n => if n ≤ 65535 then .ok (some n) else .error .valueError
    else .error .valueError

end SplitResult

end Imghost.Web
