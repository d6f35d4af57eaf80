import RestDispatch.Http.Header
import RestDispatch.Json.Printer
import RestDispatch.Text.Base64
import RestDispatch.Transport
import RestDispatch.Url.Form

/-!
# Requests on the wire

What a request looks like when it is sent: a method, a URL with the query parameters behind its own,
headers and a body. The user of the URL becomes a header; the headers of a call are put behind those
of the transport, and its default headers fill in the names that are still missing.
-/

namespace RestDispatch

/-- A request on the wire. -/
structure WireRequest where
  method : Method
  url : Url
  headers : List Header
  body : Bytes

namespace WireRequest

/-- The header that names a user. -/
def authorization (username : String) (password : Option String) : Header :=
  ⟨"authorization", "Basic " ++ String.ofList (Text.base64
    (Utf8.encode (username ++ ":" ++ password.getD "")))⟩

/-- A part of the user as it is meant. -/
def plainUser? (s : String) : Option String :=
  (Utf8.decode (Percent.decode (Utf8.encode s))).toOption

/-- The user of a URL, if it names one whose name is a text. A password that is no text is none. -/
def user? (u : Url) : Option (String × Option String) := do
  let a ← u.authority
  if a.hasUser then
    let name ← plainUser? a.username
    let password := if a.password = "" then none else plainUser? a.password
    if name ≠ "" ∨ password.isSome then return (name, password) else none
  else none

/-- A URL without its user. -/
def withoutUser (u : Url) : Url :=
  if (user? u).isSome then { u with authority := u.authority.map Authority.withoutUser } else u

/-- The media type of bodies. -/
def bodyType : Header := ⟨"content-type", "application/json"⟩

/-- What every request accepts, unless it says otherwise. -/
def acceptAny : Header := ⟨"accept", "*/*"⟩

/-- The headers of a request to `u` before those of the call. -/
def ownHeaders (u : Url) (body : Option Json) : List Header :=
  ((user? u).map fun p => authorization p.1 p.2).toList ++ (body.map fun _ => bodyType).toList

/-- The octets of a body. -/
def bodyOctets (body : Option Json) : Bytes := (body.map fun v => Utf8.encode v.text).getD []

/-- The request to a URL: `headers` are those of the call, and `defaults` those of the transport. -/
def compose (r : Request) (u : Url) (headers defaults : List Header) : WireRequest where
  method := r.method
  url := (withoutUser u).withPairs r.query.entries
  headers := Header.fill (ownHeaders u r.body ++ headers) (Header.fill defaults [acceptAny])
  body := bodyOctets r.body

/-- Characters in host names that a request cannot hold. -/
def unsendableChars : List Char := ['"', '\x60', '\x7b', '\x7d']

/-- The longest URL of a request, in octets. -/
def longestUrl : Nat := 65534

/-- Whether a request can be sent: its scheme is one that exchanges requests for responses, and its
URL is not too long and has a plain host. -/
def isSendable (w : WireRequest) : Bool :=
  (w.url.scheme == "http" || w.url.scheme == "https") && w.url.text.utf8ByteSize ≤ longestUrl &&
    match w.url.authority with
    | some a => !a.host.text.toList.any unsendableChars.contains
    | none => false

end WireRequest
end RestDispatch
