import ModuleGraph.Url
import ModuleGraph.Url.Address
import ModuleGraph.Url.Domain
import ModuleGraph.Url.Path
import ModuleGraph.Url.Percent
import ModuleGraph.Url.Scheme

/-!
# Reading URLs

`Url.parse` reads an absolute URL and `Url.join` a reference relative to another URL, both by the
rules of the URL standard: controls and spaces at both ends are dropped, a scheme decides how an
authority is looked for, dot segments are resolved, and each part is percent-encoded by its own set.
-/

namespace ModuleGraph.Url

/-! ## Query and fragment -/

/-- Characters percent-encoded by a set. -/
def encoded (set : Char → Bool) (cs : List Char) : String :=
  String.ofList (Percent.encode set cs)

/-- The URL with the query and fragment that `cs` starts, if it starts one. -/
def withTail (u : Url) (cs : List Char) : Url :=
  let cs := visible cs
  let querySet :=
    if (schemeKind u.scheme).isSpecial then Percent.specialQuerySet else Percent.querySet
  let query :=
    match cs with
    | '?' :: cs => some (encoded querySet (cs.takeWhile (· != '#')))
    | _ => none
  let fragment :=
    match cs.dropWhile (· != '#') with
    | _ :: cs => some (encoded Percent.fragmentSet cs)
    | [] => none
  { u with query := query, fragment := fragment }

/-- The URL whose path continues the text `start` with the start of `cs`. -/
def withPath (scheme : String) (authority : Option Authority) (start : List Char)
    (cs : List Char) : Url :=
  let r := readPath (schemeKind scheme) start cs
  withTail ⟨scheme, authority, .segments r.segments, none, none⟩ r.rest

/-! ## Authorities -/

/-- The host of a special URL. -/
def specialHost (cs : List Char) : Except UrlFault String :=
  match cs with
  | '[' :: rest =>
    if rest.getLast? = some ']' then
      match Address.ipv6? rest.dropLast with
      | some groups => .ok (Address.ipv6Text groups)
      | none => .error .invalidIpv6
    else .error .invalidIpv6
  | _ =>
    match (Percent.decodeText? cs).bind Domain.toAscii? with
    | none => .error .invalidDomainName
    | some [] => .error .emptyHost
    | some domain =>
      if Address.endsInNumber domain then
        match Address.ipv4? domain with
        | some n => .ok (Address.ipv4Text n)
        | none => .error .invalidIpv4
      else .ok (String.ofList domain)

/-- A character that the host of any other URL may not hold. -/
def isForbiddenInHost (c : Char) : Bool :=
  c == '\x00' || c == '\t' || c == '\n' || c == '\r' || c == ' ' || c == '#' || c == '/' || c == ':'
    || c == '<' || c == '>' || c == '?' || c == '@' || c == '[' || c == '\\' || c == ']'
    || c == '^' || c == '|'

/-- The host of a URL that is not special. -/
def otherHost (cs : List Char) : Except UrlFault String :=
  match cs with
  | '[' :: _ => specialHost cs
  | _ =>
    if cs.any isForbiddenInHost then .error .invalidDomainCharacter
    else .ok (encoded Percent.controlSet cs)

/-- The characters of a host and those behind it. A colon in brackets belongs to the host. -/
def splitHost (k : SchemeKind) : (inBrackets : Bool) → List Char → List Char × List Char
  | _, [] => ([], [])
  | inBrackets, c :: cs =>
    if isSlash k c || c == '?' || c == '#' || (c == ':' && !inBrackets) then ([], c :: cs)
    else
      let r := splitHost k (if c == '[' then true else if c == ']' then false else inBrackets) cs
      (c :: r.1, r.2)

/-- The port behind a host's colon, and the characters behind it. The scheme's own port counts as
none. -/
def port (scheme : String) (cs : List Char) : Except UrlFault (Option Nat × List Char) :=
  let digits := cs.takeWhile Char.isDigit
  let rest := cs.dropWhile Char.isDigit
  let ends :=
    match rest with
    | [] => true
    | c :: _ => c == '/' || c == '\\' || c == '?' || c == '#'
  match Address.digits? 10 digits with
  | some n =>
    if 0xFFFF < n ∨ !ends then .error .invalidPort
    else if digits.isEmpty ∨ some n = defaultPort? scheme then .ok (none, rest)
    else .ok (some n, rest)
  | none => .error .invalidPort

/-- The user name and password before the last `@` of an authority. -/
def splitUserinfo (k : SchemeKind) (cs : List Char) : Option (List Char × List Char) :=
  let inAuthority (c : Char) : Bool := !(isSlash k c || c == '?' || c == '#')
  let authority := cs.takeWhile inAuthority
  if authority.contains '@' then
    let host := (authority.reverse.takeWhile (· != '@')).reverse
    let userinfo := authority.take (authority.length - host.length - 1)
    some (userinfo, host ++ cs.dropWhile inAuthority)
  else none

/-- The URL behind two slashes. -/
def afterSlashes (scheme : String) (cs : List Char) : Except UrlFault Url := do
  let k := schemeKind scheme
  let (userinfo, cs) ←
    match splitUserinfo k cs with
    | some ([], c :: cs) =>
      if isSlash k c || c == '?' || c == '#' then .error .emptyHost else .ok ([], c :: cs)
    | some split => .ok split
    | none => .ok ([], cs)
  let username := encoded Percent.userinfoSet (userinfo.takeWhile (· != ':'))
  let password := encoded Percent.userinfoSet ((userinfo.dropWhile (· != ':')).drop 1)
  let (hostChars, cs) := splitHost k false cs
  let host ←
    if k.isSpecial then if hostChars.isEmpty then .error .emptyHost else specialHost hostChars
    else otherHost hostChars
  let hasPort := cs.head? = some ':'
  if host = "" ∧ (hasPort ∨ username ≠ "" ∨ password ≠ "") then .error .emptyHost
  else
    let (port, cs) ← if hasPort then port scheme (cs.drop 1) else .ok (none, cs)
    let authority := some ⟨username, password, host, port⟩
    match cs with
    | [] | '?' :: _ | '#' :: _ =>
      if k.isSpecial then .ok (withPath scheme authority ['/'] cs)
      else .ok (withTail ⟨scheme, authority, .segments [], none, none⟩ cs)
    | c :: rest =>
      .ok (withPath scheme authority ['/'] (if isSlash k c then rest else c :: rest))

/-! ## References -/

/-- The base with another query or fragment, for a reference that has no path. -/
def sameDocument (base : Url) (cs : List Char) : Url :=
  match cs with
  | '?' :: _ => withTail base cs
  | _ => { withTail base cs with query := base.query }

/-- A reference to a URL of the same scheme that is not `file`. -/
def relative (base : Url) (cs : List Char) : Except UrlFault Url :=
  match cs with
  | [] | '?' :: _ | '#' :: _ => .ok (sameDocument base cs)
  | c :: rest =>
    if c = '/' ∨ c = '\\' then
      match rest with
      | d :: behind =>
        if c = '/' ∧ d = '/' then afterSlashes base.scheme behind
        else if d = '/' ∨ d = '\\' then
          afterSlashes base.scheme (rest.dropWhile fun c => c == '/' || c == '\\')
        else .ok (withPath base.scheme base.authority ['/'] rest)
      | [] => .ok (withPath base.scheme base.authority ['/'] rest)
    else
      let parent := base.path.text.toList.reverse.dropWhile (· != '/')
      .ok (withPath base.scheme base.authority (withSlash parent).reverse (c :: rest))

/-- The host of a `file` URL; the local host is the same as none. -/
def fileHost (cs : List Char) : Except UrlFault String := do
  let host ← if cs.isEmpty then .ok "" else specialHost cs
  .ok (if host = "localhost" then "" else host)

/-- The `file` URL behind two slashes. A host before a drive letter is dropped. -/
def fileAfterSlashes (cs : List Char) : Except UrlFault Url := do
  let inHost (c : Char) : Bool := !(isSlash .file c || c == '?' || c == '#')
  let hostChars := visible (cs.takeWhile inHost)
  let (host, cs) ←
    if isDriveLetter hostChars then .ok ("", cs)
    else do .ok (← fileHost hostChars, cs.dropWhile inHost)
  let path :=
    match cs with
    | c :: rest => if host ≠ "" ∧ isSlash .file c then rest else c :: rest
    | [] => []
  let r := readPath .file ['/'] path
  let host := if r.hasDrive then "" else host
  .ok (withTail ⟨"file", some (.ofHost host), .segments r.segments, none, none⟩ r.rest)

/-- The `file` URL behind one slash. It keeps the base's drive, or else its host. -/
def fileAfterSlash (base : Option Url) (cs : List Char) : Url :=
  match if startsWithDriveLetter (visible cs) then none else base with
  | some base =>
    match base.pathSegments.head? with
    | some first =>
      if isNormalDrive first.toList then
        withPath "file" (some (.ofHost "")) ('/' :: first.toList ++ ['/']) cs
      else withPath "file" base.authority ['/'] cs
    | none => withPath "file" base.authority ['/'] cs
  | none => withPath "file" (some (.ofHost "")) ['/'] cs

/-- The `file` URL of a reference behind its scheme, relative to a `file` URL if there is one. -/
def fileRelative (base : Option Url) (cs : List Char) : Except UrlFault Url :=
  match cs.dropWhile isIgnored, base with
  | [], some base => .ok (sameDocument base [])
  | [], none => .ok (withPath "file" (some (.ofHost "")) ['/'] [])
  | c :: rest, base =>
    if isSlash .file c then
      match rest.dropWhile isIgnored with
      | d :: behind =>
        if isSlash .file d then fileAfterSlashes behind else .ok (fileAfterSlash base rest)
      | [] => .ok (fileAfterSlash base rest)
    else
      match base with
      | some base =>
        if c = '?' ∨ c = '#' then .ok (sameDocument base (c :: rest))
        else if startsWithDriveLetter (visible (c :: rest)) then
          .ok (withPath "file" (some (.ofHost "")) ['/'] (c :: rest))
        else
          let parent := shorten .file base.path.text.toList.reverse
          .ok (withPath "file" base.authority parent.reverse (c :: rest))
      | none => .ok (withPath "file" (some (.ofHost "")) ['/'] (c :: rest))

/-- A URL of a scheme that is neither special nor `file`. -/
def otherAbsolute (scheme : String) (cs : List Char) : Except UrlFault Url :=
  match cs with
  | '/' :: '/' :: rest => afterSlashes scheme rest
  | '/' :: rest => .ok (withPath scheme none ['/'] rest)
  | _ =>
    let inPath (c : Char) : Bool := c != '?' && c != '#'
    let path := UrlPath.flat (encoded Percent.controlSet (cs.takeWhile inPath))
    .ok (withTail ⟨scheme, none, path, none, none⟩ (cs.dropWhile inPath))

/-- Reads a reference, relative to a base if there is one. -/
def parseReference (base : Option Url) (text : String) : Except UrlFault Url :=
  let cs := trimmed text.toList
  match splitScheme cs with
  | some (scheme, behind) =>
    let rest := visible behind
    match schemeKind scheme with
    | .file => fileRelative (base.filter (·.scheme == "file")) behind
    | .special =>
      let slashes := rest.takeWhile fun c => c == '/' || c == '\\'
      match base.filter (·.scheme == scheme) with
      | some base =>
        if slashes.length < 2 then relative base rest
        else afterSlashes scheme (rest.drop slashes.length)
      | none => afterSlashes scheme (rest.drop slashes.length)
    | .other => otherAbsolute scheme rest
  | none =>
    match base with
    | none => .error .relativeWithoutBase
    | some base =>
      if cs.head? = some '#' then .ok (sameDocument base cs)
      else if base.isFlat then .error .relativeToFlat
      else if base.scheme = "file" then fileRelative (some base) cs
      else relative base (visible cs)

/-- Reads an absolute URL. -/
def parse (text : String) : Except UrlFault Url :=
  parseReference none text

/-- Reads a reference relative to a URL. -/
def join (base : Url) (text : String) : Except UrlFault Url :=
  parseReference (some base) text

end ModuleGraph.Url
