/-!
# URLs

A `Url` in parts: scheme, authority, path, query and fragment, each part already percent-encoded.
`Url.text` writes it. Two URLs are the same resource when they agree once their fragments are
dropped.
-/

namespace ModuleGraph

/-- User, host and port of a URL. A port is kept only where it differs from the scheme's own. -/
structure Authority where
  username : String
  password : String
  host : String
  port : Option Nat
deriving DecidableEq, Repr

/-- The authority of a host alone. -/
def Authority.ofHost (host : String) : Authority :=
  ⟨"", "", host, none⟩

/-- The path of a URL: plain text in a URL that nothing can be relative to, otherwise the segments
behind each slash. -/
inductive UrlPath where
  | flat (text : String)
  | segments (list : List String)
deriving DecidableEq, Repr

/-- A URL in parts. -/
structure Url where
  scheme : String
  authority : Option Authority
  path : UrlPath
  query : Option String
  fragment : Option String
deriving DecidableEq, Repr

/-- Why a text is no URL. -/
inductive UrlFault where
  | relativeWithoutBase
  | relativeToFlat
  | emptyHost
  | invalidPort
  | invalidIpv4
  | invalidIpv6
  | invalidDomainCharacter
  | invalidDomainName
deriving DecidableEq, Repr

/-- The message of a fault. -/
def UrlFault.message : UrlFault → String
  | .relativeWithoutBase => "relative URL without a base"
  | .relativeToFlat => "relative URL with a cannot-be-a-base base"
  | .emptyHost => "empty host"
  | .invalidPort => "invalid port number"
  | .invalidIpv4 => "invalid IPv4 address"
  | .invalidIpv6 => "invalid IPv6 address"
  | .invalidDomainCharacter => "invalid domain character"
  | .invalidDomainName => "invalid international domain name"

namespace Authority

/-- The user name and password with the sign behind them, nothing if both are empty. -/
def userinfo (a : Authority) : String :=
  if a.username = "" ∧ a.password = "" then ""
  else a.username ++ (if a.password = "" then "" else ":" ++ a.password) ++ "@"

/-- The authority as written behind two slashes. -/
def text (a : Authority) : String :=
  a.userinfo ++ a.host ++
    match a.port with
    | some port => ":" ++ toString port
    | none => ""

end Authority

namespace UrlPath

/-- The path as written. -/
def text : UrlPath → String
  | .flat text => text
  | .segments list => String.join (list.map ("/" ++ ·))

end UrlPath

namespace Url

/-- What stands between scheme and path. Without an authority, a path that begins with two slashes
is kept from being read as one. -/
def authorityText (u : Url) : String :=
  match u.authority, u.path with
  | some a, _ => "//" ++ a.text
  | none, .segments ("" :: _ :: _) => "/."
  | none, _ => ""

/-- A URL as written. -/
def text (u : Url) : String :=
  u.scheme ++ ":" ++ u.authorityText ++ u.path.text
    ++ (match u.query with
        | some query => "?" ++ query
        | none => "")
    ++ (match u.fragment with
        | some fragment => "#" ++ fragment
        | none => "")

/-- A flat path without its trailing spaces. -/
def trimFlat : UrlPath → UrlPath
  | .flat text => .flat (String.ofList (text.toList.reverse.dropWhile (· == ' ')).reverse)
  | path => path

/-- The URL without its fragment. Spaces at the end of a flat path are dropped with it, unless a
query follows them. -/
def withoutFragment (u : Url) : Url :=
  { u with
    fragment := none
    path := if u.query.isNone then trimFlat u.path else u.path }

/-- Whether nothing can be relative to the URL. -/
def isFlat (u : Url) : Bool :=
  match u.path with
  | .flat _ => true
  | .segments _ => false

/-- The path segments; a flat path has none. -/
def pathSegments (u : Url) : List String :=
  match u.path with
  | .flat _ => []
  | .segments list => list

/-- The host, unless it is empty or missing. -/
def host? (u : Url) : Option String :=
  match u.authority with
  | some a => if a.host = "" then none else some a.host
  | none => none

@[simp] theorem withoutFragment_fragment (u : Url) : u.withoutFragment.fragment = none :=
  rfl

@[simp] theorem trimFlat_trimFlat (path : UrlPath) : trimFlat (trimFlat path) = trimFlat path := by
  cases path with
  | flat text =>
    have hdrop : ∀ cs : List Char,
        (cs.dropWhile (· == ' ')).dropWhile (· == ' ') = cs.dropWhile (· == ' ') := by
      intro cs
      induction cs with
      | nil => rfl
      | cons c cs ih => by_cases h : c = ' ' <;> simp [h, ih]
    simp [trimFlat, hdrop]
  | segments list => rfl

/-- Whether a URL has neither a fragment nor anything that is dropped with one. -/
class IsBare (u : Url) : Prop where
  withoutFragment_eq : u.withoutFragment = u

instance (u : Url) : IsBare u.withoutFragment :=
  ⟨by cases hquery : u.query.isNone <;> simp [withoutFragment, hquery]⟩

instance (scheme : String) (authority : Option Authority) (list : List String)
    (query : Option String) : IsBare ⟨scheme, authority, .segments list, query, none⟩ :=
  ⟨by cases query <;> rfl⟩

instance (scheme : String) (authority : Option Authority) (query : Option String) :
    IsBare ⟨scheme, authority, .flat "", query, none⟩ :=
  ⟨by cases query <;> rfl⟩

end Url

end ModuleGraph
