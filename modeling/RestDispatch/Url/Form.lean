import RestDispatch.Url.Parser

/-!
# Form queries

Names and values in the query of a URL: pairs with ampersands between them, a space as a plus sign,
and everything but letters, digits and four signs percent-encoded. `Form.decode` reads any query.
-/

namespace RestDispatch.Form

/-- A character that stands for itself in a form query. -/
def isPlain (c : Char) : Bool := c.isAlphanum || c == '*' || c == '-' || c == '.' || c == '_'

/-- A name or a value in a form query. -/
def encodePart (s : String) : List Char :=
  s.toList.flatMap fun c => if c = ' ' then ['+'] else Percent.encode isPlain [c]

/-- A pair in a form query. -/
def encodePair (p : String × String) : List Char := encodePart p.1 ++ '=' :: encodePart p.2

/-- Pairs put behind a form query. -/
def append (query : List Char) : List (String × String) → List Char
  | [] => query
  | p :: ps => append ((if query = [] then [] else query ++ ['&']) ++ encodePair p) ps

/-- A name or a value from its form. -/
def decodePart (cs : List Char) : String :=
  Utf8.decodeLossy (Percent.decode (Utf8.encodeList (cs.map fun c => if c = '+' then ' ' else c)))

/-- The pair that a part of a form query stands for: its name ends at the first equals sign. -/
def decodePair (cs : List Char) : String × String :=
  let name := cs.takeWhile (· ≠ '=')
  (decodePart name, decodePart (cs.drop (name.length + 1)))

/-- The pairs of a form query. -/
def decode (cs : List Char) : List (String × String) :=
  ((Address.splitAt '&' cs).filter (· ≠ [])).map decodePair

end RestDispatch.Form

namespace RestDispatch.Url

/-- A URL with pairs put behind its query. -/
def withPairs (u : Url) (pairs : List (String × String)) : Url :=
  if pairs = [] then u
  else { u with query := some (String.ofList (Form.append (u.query.getD "").toList pairs)) }

end RestDispatch.Url
