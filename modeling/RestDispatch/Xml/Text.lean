import RestDispatch.Decimal.Digits
import RestDispatch.Text.Utf8

/-!
# Text of XML documents

What the octets between two tags, or between the quotes of an attribute, stand for. A reference is a
character by its number or one of the five names that every document knows, and each way to end a
line is a line feed.
-/

namespace RestDispatch.Xml

/-- A space, a tab or an end of line. -/
def isSpace (b : UInt8) : Bool := b == 0x20 || b == 0x09 || b == 0x0A || b == 0x0D

/-- A space, a tab or an end of line as a character. -/
def isSpaceChar (c : Char) : Bool := c == ' ' || c == '\t' || c == '\n' || c == '\r'

/-- Whether a text has nothing but spaces. -/
def isBlankText (s : String) : Bool := s.toList.all isSpaceChar

/-- A text without the spaces at its two ends. -/
def trimSpaces (cs : List Char) : List Char :=
  ((cs.dropWhile isSpaceChar).reverse.dropWhile isSpaceChar).reverse

/-- The characters of octets, if they are UTF-8. -/
def characters? (bs : Bytes) : Option (List Char) := (Utf8.decodeFrom 0 bs).toOption

/-- A text with line feeds for all ends of lines. -/
def unifyLines : List Char → List Char
  | '\r' :: '\n' :: cs => '\n' :: unifyLines cs
  | '\r' :: '\u0085' :: cs => '\n' :: unifyLines cs
  | c :: cs => (if c = '\r' ∨ c = '\u0085' ∨ c = '\u2028' then '\n' else c) :: unifyLines cs
  | [] => []

/-- The character that a number stands for. -/
def ofNumber? (n : Nat) : Option Char :=
  if n ≠ 0 ∧ n.isValidChar then some (Char.ofNat n) else none

/-- The characters that names stand for. -/
def entities : List (String × Char) :=
  [("lt", '<'), ("gt", '>'), ("amp", '&'), ("apos", '\x27'), ("quot", '"')]

/-- The character that a reference without its marks stands for. -/
def resolve? : List Char → Option Char
  | '#' :: 'x' :: c :: cs => Decimal.readBase 16 0 (c :: cs) >>= ofNumber?
  | '#' :: c :: cs => Decimal.readBase 10 0 (c :: cs) >>= ofNumber?
  | name => entities.lookup (String.ofList name)

/-- A piece of a text as it is written. -/
inductive Piece
  | text (bs : Bytes)
  | verbatim (bs : Bytes)
  | reference (bs : Bytes)

/-- What a piece stands for. -/
def Piece.read? : Piece → Option (List Char)
  | .text bs | .verbatim bs => (characters? bs).map unifyLines
  | .reference bs => do
    let cs ← characters? bs
    let c ← resolve? cs
    return [c]

/-- What consecutive pieces stand for. -/
def Piece.readAll? (ps : List Piece) : Option String :=
  (ps.mapM Piece.read?).map fun ts => String.ofList ts.flatten

/-- The value of an attribute, from the characters between its quotes; `name` holds the characters
since a mark that begins a reference, the last first. -/
def readValue? : Option (List Char) → List Char → Option (List Char)
  | none, [] => some []
  | some _, [] => none
  | none, c :: cs =>
    if c = '&' then readValue? (some []) cs else (readValue? none cs).map (c :: ·)
  | some name, c :: cs =>
    if c = '&' then none
    else if c = ';' then do
      let d ← resolve? name.reverse
      let rest ← readValue? none cs
      return d :: rest
    else readValue? (some (c :: name)) cs

/-- The value of an attribute, from the octets between its quotes. -/
def attributeValue? (bs : Bytes) : Option String :=
  ((characters? bs).bind (readValue? none)).map String.ofList

end RestDispatch.Xml
