import RestDispatch.Text.Utf8

/-!
# YAML character streams

A YAML text is octets in UTF-8 or, if it begins with the mark for it, in UTF-16. `decode` gives its
characters; a text with a control character or a misplaced mark has none. The classes of characters
that the tokens of the language are told apart by stand here too.
-/

namespace RestDispatch.Yaml

/-- The 16-bit units of octets in pairs, the high octet first if `bigEndian`. -/
def units (bigEndian : Bool) : Bytes → Option (List Nat)
  | [] => some []
  | [_] => none
  | a :: b :: rest =>
    let u := if bigEndian then a.toNat * 256 + b.toNat else b.toNat * 256 + a.toNat
    (units bigEndian rest).map (u :: ·)

/-- The characters of 16-bit units. -/
def decodeUnits : List Nat → Option (List Char)
  | [] => some []
  | u :: us =>
    if 0xD800 ≤ u ∧ u < 0xDC00 then
      match us with
      | v :: rest =>
        if 0xDC00 ≤ v ∧ v < 0xE000 then
          (decodeUnits rest).map
            (Char.ofNat ((u - 0xD800) * 0x400 + (v - 0xDC00) + 0x10000) :: ·)
        else none
      | [] => none
    else if 0xDC00 ≤ u ∧ u < 0xE000 then none
    else (decodeUnits us).map (Char.ofNat u :: ·)

/-- A character that a YAML text may hold. -/
def isPrintable (c : Char) : Bool :=
  let n := c.toNat
  n == 9 || n == 10 || n == 13 || (0x20 ≤ n && n ≤ 0x7E) || n == 0x85 ||
    (0xA0 ≤ n && n ≤ 0xD7FF) || (0xE000 ≤ n && n ≤ 0xFFFD && n != 0xFEFF) || 0x10000 ≤ n

/-- The characters of octets without regard to what a YAML text may hold. -/
def decodeAny : Bytes → Option (List Char)
  | 0xFF :: 0xFE :: rest => units false rest >>= decodeUnits
  | 0xFE :: 0xFF :: rest => units true rest >>= decodeUnits
  | 0xEF :: 0xBB :: 0xBF :: rest => (Utf8.decodeFrom 0 rest).toOption
  | bs => (Utf8.decodeFrom 0 bs).toOption

/-- The characters of a YAML text. -/
def decode (text : Bytes) : Option (List Char) :=
  (decodeAny text).bind fun cs => if cs.all isPrintable then some cs else none

/-! ### Character classes -/

/-- A space or a tab. -/
def isBlankChar (c : Char) : Bool := c == ' ' || c == '\t'

/-- A line break. -/
def isBreakChar (c : Char) : Bool :=
  c == '\n' || c == '\r' || c == '\u0085' || c == '\u2028' || c == '\u2029'

/-- A character that words of the language consist of. -/
def isWordChar (c : Char) : Bool := c.isAlphanum || c == '_' || c == '-'

/-- Whether a text begins with a line break. -/
def atBreak : List Char → Bool
  | c :: _ => isBreakChar c
  | [] => false

/-- Whether a text begins with a space or a tab. -/
def atBlank : List Char → Bool
  | c :: _ => isBlankChar c
  | [] => false

/-- Whether a text begins with a line break or is at its end. -/
def atBreakOrEnd : List Char → Bool
  | c :: _ => isBreakChar c
  | [] => true

/-- Whether a text begins with a blank or a line break or is at its end. -/
def atSpaceOrEnd : List Char → Bool
  | c :: _ => isBlankChar c || isBreakChar c
  | [] => true

/-- Whether a text begins with one of the given characters. -/
def atAny (set : List Char) : List Char → Bool
  | c :: _ => set.contains c
  | [] => false

/-- Whether a line begins with three dashes or three points that stand alone. -/
def atDocumentMark : List Char → Bool
  | '-' :: '-' :: '-' :: rest => atSpaceOrEnd rest
  | '.' :: '.' :: '.' :: rest => atSpaceOrEnd rest
  | _ => false

/-- The text of a line break, and what follows it. -/
def takeBreak : List Char → List Char × List Char
  | '\r' :: '\n' :: rest => (['\n'], rest)
  | c :: rest =>
    if c == '\u2028' || c == '\u2029' then ([c], rest)
    else if isBreakChar c then (['\n'], rest)
    else ([], c :: rest)
  | [] => ([], [])

end RestDispatch.Yaml
