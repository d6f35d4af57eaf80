import RestDispatch.Url.Path

/-!
# Reading URLs

`Url.parse` reads a URL that stands by itself and `Url.join` one that may be relative to a base.
Controls and spaces at the ends of a text and tabs and line ends anywhere in it do not count. A text
without a scheme takes what it lacks from the base; so does one with the scheme of a base of the web
and fewer than two slashes after it.
-/

namespace RestDispatch.Url

open Percent

/-- The characters of a text that count. -/
def significant (cs : List Char) : List Char :=
  let trimmed := ((cs.dropWhile (·.toNat ≤ 0x20)).reverse.dropWhile (·.toNat ≤ 0x20)).reverse
  trimmed.filter fun c => c != '\t' && c != '\n' && c != '\r'

/-- A character of a scheme after its first letter. -/
def isSchemeChar (c : Char) : Bool := c.isAlphanum || c == '+' || c == '-' || c == '.'

/-- The scheme that a text begins with, and what follows its colon. -/
def takeScheme? (cs : List Char) : Option (String × List Char) :=
  let name := cs.takeWhile isSchemeChar
  match name, cs.drop name.length with
  | c :: _, ':' :: rest =>
    if c.isAlpha then some (String.ofList (name.map Char.toLower), rest) else none
  | _, _ => none

/-- A query or a fragment in the form in which it is written. -/
def component (set cs : List Char) : String := String.ofList (encode (allBut set) cs)

/-- The characters that the query of a URL does not admit. -/
def querySetOf (kind : SchemeKind) : List Char := if kind.isSpecial then webQuerySet else querySet

/-- A URL with the query and the fragment that a text consists of. -/
def withTail (u : Url) (cs : List Char) : Url :=
  let query := match cs with
    | '?' :: rest => some (component (querySetOf u.kind) (rest.takeWhile (· ≠ '#')))
    | _ => none
  let fragment := match cs.dropWhile (· ≠ '#') with
    | _ :: rest => some (component fragmentSet rest)
    | [] => none
  { u with query, fragment }

/-- Whether a character ends a path. -/
def endsPath (c : Char) : Bool := c == '?' || c == '#'

/-- The part of a text before its query and fragment, and those. -/
def splitTail (cs : List Char) : List Char × List Char := cs.span fun c => !endsPath c

/-- A URL with the path of `u` extended by a text, and with the query and the fragment of the text.
-/
def extend (u : Url) (path cs : List Char) : Url :=
  let (text, tail) := splitTail cs
  let s := extendPath u.kind path text
  withTail { u with path := String.ofList s.path } tail

/-! ### Authorities -/

/-- Whether a character ends an authority. -/
def endsAuthority (kind : SchemeKind) (c : Char) : Bool := isSlash kind c || endsPath c

/-- Reads the user of an authority: what stands before a colon, and after it. -/
def readUser (cs : List Char) : String × String :=
  (component userInfoSet (cs.takeWhile (· ≠ ':')),
    component userInfoSet ((cs.dropWhile (· ≠ ':')).drop 1))

/-- The host that an authority begins with, up to a colon outside brackets, and the rest. -/
def spanHost : Bool → List Char → List Char × List Char
  | _, [] => ([], [])
  | inside, c :: cs =>
    if c = ':' ∧ !inside then ([], c :: cs)
    else
      let r := spanHost (if c = '[' then true else if c = ']' then false else inside) cs
      (c :: r.1, r.2)

/-- Reads a port after its colon, and what follows it; no digits are no port. -/
def readPort (acc : Option Nat) : List Char → Except UrlFault (Option Nat × List Char)
  | [] => .ok (acc, [])
  | c :: cs =>
    if c.isDigit then
      let n := 10 * acc.getD 0 + (c.toNat - '0'.toNat)
      if n < 65536 then readPort (some n) cs else .error .invalidPort
    else if c = '/' ∨ c = '\\' ∨ endsPath c then .ok (acc, c :: cs)
    else .error .invalidPort

variable [DomainNames]

/-- Reads a host and a port from the text `cs` of an authority, before `rest`. -/
def readHostPort (scheme : String) (cs rest : List Char) :
    Except UrlFault (Host × Option Nat × List Char) := do
  let kind := SchemeKind.ofScheme scheme
  let (host, after) := spanHost false cs
  if host = [] ∧ (kind = .web ∨ after ≠ []) then throw .emptyHost
  let host ← if kind = .web then Host.readWeb host else Host.readOther host
  match after with
  | _ :: port =>
    let (port, rest) ← readPort none (port ++ rest)
    return (host, if port = defaultPort? scheme then none else port, rest)
  | [] => return (host, none, rest)

/-- Reads what follows the authority of a URL. -/
def afterAuthority (u : Url) (cs : List Char) : Url :=
  match u.kind, cs with
  | .other, [] => extend u [] []
  | .other, c :: rest =>
    if endsPath c then withTail u (c :: rest)
    else if c = '/' then extend u ['/'] rest
    else extend u ['/'] (c :: rest)
  | _, [] => extend u ['/'] []
  | kind, c :: rest => extend u ['/'] (if isSlash kind c then rest else c :: rest)

/-- Reads a URL after its scheme and the slashes before the authority. -/
def readAuthority (scheme : String) (cs : List Char) : Except UrlFault Url := do
  let kind := SchemeKind.ofScheme scheme
  let (text, rest) := cs.span fun c => !endsAuthority kind c
  let host := (text.reverse.takeWhile (· ≠ '@')).reverse
  let user := text.take (text.length - host.length - 1)
  if host.length < text.length ∧ user = [] ∧ host = [] ∧ rest ≠ [] then throw .emptyHost
  let (username, password) := readUser user
  let (host, port, rest) ← readHostPort scheme host rest
  let authority : Authority := ⟨username, password, host, port⟩
  if host = .none ∧ authority.hasUser then throw .emptyHost
  return afterAuthority ⟨scheme, some authority, "", none, none⟩ rest

/-! ### Files -/

/-- The URL of a file on no particular host. -/
def fileRoot : Url := ⟨"file", some .nowhere, "", none, none⟩

/-- The URL of a file at a path; the letter of a drive takes the place of the host. -/
def extendFile (u : Url) (path cs : List Char) : Url :=
  let (text, tail) := splitTail cs
  let s := extendPath .file path text
  let authority := if s.drive then some .nowhere else u.authority
  withTail { u with authority, path := String.ofList s.path } tail

/-- Reads the URL of a file after two slashes. -/
def readFileHost (cs : List Char) : Except UrlFault Url := do
  let (host, rest) := cs.span fun c => !endsAuthority .file c
  if isDrive host then return extendFile fileRoot ['/'] cs
  else
    let host ← if host = [] then pure Host.none else Host.readWeb host
    let host := if host = .name "localhost" then .none else host
    let u : Url := { fileRoot with authority := some { Authority.nowhere with host } }
    let rest := match rest with
      | c :: more => if isSlash .file c then more else rest
      | [] => []
    return extendFile u ['/'] rest

/-- The first segment of a path. -/
def firstSegment (path : String) : List Char := (path.toList.drop 1).takeWhile (· ≠ '/')

/-- Reads the URL of a file after one slash. -/
def readFileRooted (base : Option Url) (cs : List Char) : Url :=
  let plain := extendFile fileRoot [] cs
  if startsWithDrive (cs.drop 1) then plain
  else
    match base with
    | some b =>
      if isPlainDrive (firstSegment b.path) then extendFile fileRoot ('/' :: firstSegment b.path) cs
      else { plain with authority := b.authority }
    | none => plain

/-- Reads the URL of a file after its scheme. -/
def readFile (base : Option Url) (cs : List Char) : Except UrlFault Url :=
  match cs with
  | c :: d :: rest =>
    if isSlash .file c then
      if isSlash .file d then readFileHost rest else .ok (readFileRooted base cs)
    else .ok (relative base cs)
  | [c] => if isSlash .file c then .ok (readFileRooted base cs) else .ok (relative base cs)
  | [] => .ok (relative base cs)
where
  /-- Reads a text that has no slash at its head. -/
  relative (base : Option Url) (cs : List Char) : Url :=
    match base, cs with
    | none, _ => extendFile fileRoot ['/'] cs
    | some b, [] => b.withoutFragment
    | some b, c :: rest =>
      if c = '?' then withTail b (c :: rest)
      else if c = '#' then { b with fragment := some (component fragmentSet rest) }
      else if startsWithDrive (c :: rest) then extendFile fileRoot ['/'] (c :: rest)
      else extend b (popSegment .file b.path.toList) (c :: rest)

/-! ### References -/

/-- Reads a text without a scheme, relative to a base whose path is no single text. -/
def readRelative (base : Url) (cs : List Char) : Except UrlFault Url :=
  match cs with
  | [] => .ok base.withoutFragment
  | c :: rest =>
    if c = '?' then .ok (withTail base cs)
    else if c = '#' then .ok { base with fragment := some (component fragmentSet rest) }
    else if c = '/' ∨ c = '\\' then
      match rest with
      | d :: more =>
        if d = '/' ∨ d = '\\' then
          if c = '/' ∧ d = '/' then readAuthority base.scheme more
          else readAuthority base.scheme (rest.dropWhile fun c => c == '/' || c == '\\')
        else .ok (extend base ['/'] rest)
      | [] => .ok (extend base ['/'] rest)
    else
      let path := popSegment base.kind base.path.toList
      .ok (extend base (if path = [] then ['/'] else path) cs)

/-- Reads a URL after its scheme. -/
def readScheme (base : Option Url) (scheme : String) (cs : List Char) : Except UrlFault Url :=
  match SchemeKind.ofScheme scheme with
  | .file => readFile (base.filter (·.scheme == "file")) cs
  | .web =>
    let slashes := cs.takeWhile fun c => c == '/' || c == '\\'
    match base with
    | some b =>
      if slashes.length < 2 ∧ b.scheme = scheme then readRelative b cs
      else readAuthority scheme (cs.drop slashes.length)
    | none => readAuthority scheme (cs.drop slashes.length)
  | .other =>
    let u : Url := ⟨scheme, none, "", none, none⟩
    match cs with
    | '/' :: '/' :: rest => readAuthority scheme rest
    | '/' :: rest => .ok (extend u ['/'] rest)
    | _ =>
      let (text, tail) := splitTail cs
      .ok (withTail { u with path := component [] text } tail)

/-- Reads a text that may be relative to a base. -/
def read (base : Option Url) (text : String) : Except UrlFault Url :=
  let cs := significant text.toList
  match takeScheme? cs with
  | some (scheme, rest) => readScheme base scheme rest
  | none =>
    match base with
    | none => .error .relativeWithoutBase
    | some b =>
      match cs with
      | '#' :: rest => .ok { b with fragment := some (component fragmentSet rest) }
      | _ =>
        if b.isOpaque then .error .relativeToOpaqueBase
        else if b.kind = .file then readFile (some b) cs
        else readRelative b cs

/-- Reads a URL that stands by itself. -/
def parse (text : String) : Except UrlFault Url := read none text

/-- Reads a URL that may be relative to `base`. -/
def join (base : Url) (text : String) : Except UrlFault Url := read (some base) text

end RestDispatch.Url
