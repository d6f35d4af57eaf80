import RestDispatch.Url.Host

/-!
# URLs

A URL in its parts. `Url.text` is its canonical text: the parts are kept in the form in which they
are written. The scheme decides how paths and hosts are read; those of the web and of files always
have a path that begins with a slash.
-/

namespace RestDispatch

/-- The kinds of schemes that are read in different ways. -/
inductive SchemeKind
  | web
  | file
  | other
  deriving DecidableEq

namespace SchemeKind

/-- The kind of a scheme. -/
def ofScheme (s : String) : SchemeKind :=
  if ["http", "https", "ws", "wss", "ftp"].contains s then .web
  else if s = "file" then .file
  else .other

/-- Whether a backslash counts as a slash. -/
def isSpecial (k : SchemeKind) : Bool := k != .other

end SchemeKind

/-- The port that a scheme implies. -/
def defaultPort? (scheme : String) : Option Nat :=
  match scheme with
  | "http" | "ws" => some 80
  | "https" | "wss" => some 443
  | "ftp" => some 21
  | _ => none

/-- Where a resource is to be found: a host, its port if that is not implied, and the user. A
password without characters is none. -/
structure Authority where
  username : String
  password : String
  host : Host
  port : Option Nat
  deriving DecidableEq

namespace Authority

/-- The authority of a file on no particular host. -/
def nowhere : Authority := ⟨"", "", .none, none⟩

/-- Whether a user is named. -/
def hasUser (a : Authority) : Bool := a.username != "" || a.password != ""

/-- The text of the user. -/
def userText (a : Authority) : String :=
  if a.hasUser then a.username ++ (if a.password = "" then "" else ":" ++ a.password) ++ "@" else ""

/-- The text of an authority. -/
def text (a : Authority) : String :=
  a.userText ++ a.host.text ++ (a.port.map fun p => ":" ++ toString p).getD ""

/-- The authority without its user. -/
def withoutUser (a : Authority) : Authority := { a with username := "", password := "" }

end Authority

/-- A URL. -/
structure Url where
  scheme : String
  authority : Option Authority
  path : String
  query : Option String
  fragment : Option String
  deriving DecidableEq

namespace Url

/-- The kind of a URL's scheme. -/
def kind (u : Url) : SchemeKind := .ofScheme u.scheme

/-- Whether the path of a URL is a single text, so that nothing is relative to it. -/
def isOpaque (u : Url) : Bool := u.authority.isNone && u.path.toList.head? != some '/'

/-- A URL without its fragment. -/
def withoutFragment (u : Url) : Url := { u with fragment := none }

/-- The text between the scheme and the path. A path that begins with two slashes is told apart from
an authority by a point. -/
def hierarchy (u : Url) : String :=
  match u.authority with
  | some a => "//" ++ a.text
  | none => if ['/', '/'].isPrefixOf u.path.toList then "/." else ""

/-- The text of a URL. -/
def text (u : Url) : String :=
  u.scheme ++ ":" ++ u.hierarchy ++ u.path ++ (u.query.map ("?" ++ ·)).getD "" ++
    (u.fragment.map ("#" ++ ·)).getD ""

end Url
end RestDispatch
