import RestDispatch.Declaration.Literal
import RestDispatch.Text.Blank

/-!
# Lexing declarations

`tokenize` turns the text of a declaration into token trees. Blanks and comments separate tokens;
a documentation comment stands for the attribute that it abbreviates. There are no tokens for a text
whose delimiters do not match or whose literals do not end.
-/

namespace RestDispatch.Declaration

open Decimal

/-! ### Comments -/

/-- What follows a block comment, after its opening, at a depth of nested comments. -/
def dropComment (depth : Nat) : List Char → Option (List Char)
  | [] => none
  | '*' :: '/' :: cs =>
    match depth with
    | 0 => some cs
    | d + 1 => dropComment d cs
  | '/' :: '*' :: cs => dropComment (depth + 1) cs
  | _ :: cs => dropComment depth cs

/-- What a text without tokens at its head begins with. -/
inductive Gap
  /-- A comment, and what follows it. -/
  | comment (rest : List Char)
  /-- A documentation comment with its text; an inner one documents what it stands in. -/
  | documentation (inner : Bool) (text rest : List Char)
  /-- A comment that does not end. -/
  | unclosed
  /-- No comment. -/
  | none

/-- The characters of a line, and what follows them. -/
def spanLine (cs : List Char) : List Char × List Char := cs.span (· ≠ '\n')

/-- Reads a block comment after its opening; `documented` says which documentation it is. -/
def readBlockComment (documented : Option Bool) (cs : List Char) : Gap :=
  match dropComment 0 cs with
  | .none => .unclosed
  | some rest =>
    match documented with
    | .none => .comment rest
    | some inner => .documentation inner ((cs.take (cs.length - rest.length - 2)).drop 1) rest

/-- Reads the comment at the head of a text. -/
def readGap : List Char → Gap
  | '/' :: '/' :: cs =>
    match cs with
    | '/' :: '/' :: _ => .comment (spanLine cs).2
    | '/' :: more => .documentation false (spanLine more).1 (spanLine more).2
    | '!' :: more => .documentation true (spanLine more).1 (spanLine more).2
    | cs => .comment (spanLine cs).2
  | '/' :: '*' :: cs =>
    match cs with
    | '*' :: '*' :: _ => readBlockComment .none cs
    | '*' :: '/' :: _ => readBlockComment .none cs
    | '*' :: _ => readBlockComment (some false) cs
    | '!' :: _ => readBlockComment (some true) cs
    | cs => readBlockComment .none cs
  | _ => .none

/-! ### Literals -/

/-- Reads up to six hexadecimal digits of a code point and the brace that ends it. -/
def readCodePoint (count value : Nat) : List Char → Option (Char × List Char)
  | [] => none
  | c :: cs =>
    if c = '\x7d' then
      if count = 0 then none
      else if h : value.isValidChar then some (Char.ofNatAux value h, cs) else none
    else if c = '_' then if count = 0 then none else readCodePoint count value cs
    else
      match digitIn16? c with
      | some d => if count < 6 then readCodePoint (count + 1) (16 * value + d) cs else none
      | none => none

/-- Reads an escape after its backslash; an escape of two digits stays below `limit`. -/
def readCharEscape (limit : Nat) : List Char → Option (Char × List Char)
  | 'n' :: cs => some ('\n', cs)
  | 'r' :: cs => some ('\r', cs)
  | 't' :: cs => some ('\t', cs)
  | '\\' :: cs => some ('\\', cs)
  | '0' :: cs => some (Char.ofNat 0, cs)
  | '\x27' :: cs => some ('\x27', cs)
  | '"' :: cs => some ('"', cs)
  | 'x' :: a :: b :: cs =>
    match digitIn16? a, digitIn16? b with
    | some a, some b => if 16 * a + b < limit then some (Char.ofNat (16 * a + b), cs) else none
    | _, _ => none
  | 'u' :: '\x7b' :: cs => readCodePoint 0 0 cs
  | _ => none

/-- Reads the value of a string after its opening quote. A backslash at the end of a line takes the
blanks that follow with it. -/
def readCooked (limit : Nat) : Nat → List Char → Option (List Char × List Char)
  | 0, _ => none
  | _ + 1, [] => none
  | _ + 1, '"' :: cs => some ([], cs)
  | fuel + 1, '\\' :: cs =>
    match cs with
    | '\n' :: more => readCooked limit fuel (more.dropWhile fun c => c.isWhitespace)
    | '\r' :: '\n' :: more => readCooked limit fuel (more.dropWhile fun c => c.isWhitespace)
    | cs =>
      match readCharEscape limit cs with
      | some (c, rest) => (readCooked limit fuel rest).map fun r => (c :: r.1, r.2)
      | none => none
  | fuel + 1, '\r' :: cs =>
    match cs with
    | '\n' :: more => (readCooked limit fuel more).map fun r => ('\n' :: r.1, r.2)
    | _ => none
  | fuel + 1, c :: cs => (readCooked limit fuel cs).map fun r => (c :: r.1, r.2)

/-- Reads the value of a raw string after its opening quote, up to a quote and `hashes` hashes. -/
def readRaw (hashes : Nat) : List Char → Option (List Char × List Char)
  | [] => none
  | c :: cs =>
    if c = '"' ∧ (List.replicate hashes '#').isPrefixOf cs then some ([], cs.drop hashes)
    else if c = '\r' ∧ cs.head? ≠ some '\n' then none
    else (readRaw hashes cs).map fun r => (c :: r.1, r.2)

/-- Reads a raw string after its letter. -/
def readRawString (cs : List Char) : Option (List Char × List Char) :=
  let hashes := (cs.takeWhile (· = '#')).length
  match cs.drop hashes with
  | '"' :: rest => readRaw hashes rest
  | _ => none

/-- Reads a character literal after its opening quote; an escape of two digits stays below
`limit`. -/
def readCharacter (limit : Nat) : List Char → Option (List Char)
  | '\\' :: cs =>
    match readCharEscape limit cs with
    | some (_, '\x27' :: rest) => some rest
    | _ => none
  | _ :: '\x27' :: rest => some rest
  | _ => none

/-- What follows a literal, if its source has ASCII characters alone, as octets must. -/
def ifAscii (cs : List Char) (r : Option (List Char)) : Option (List Char) :=
  r.filter fun rest => (cs.take (cs.length - rest.length)).all fun c => c.toNat < 0x80

/-- The suffix of a literal is part of it. -/
def dropSuffix (cs : List Char) : List Char :=
  match cs with
  | c :: _ => if isNameStart c then cs.dropWhile isNamePart else cs
  | [] => []

/-- Reads a literal that is no number: what it denotes, and what follows it. -/
def readQuoted? (cs : List Char) : Option (LiteralKind × List Char) :=
  let fuel := cs.length + 1
  let text := fun (r : List Char × List Char) =>
    (LiteralKind.text (String.ofList r.1), dropSuffix r.2)
  let other := fun (rest : List Char) => (LiteralKind.other, dropSuffix rest)
  match cs with
  | '"' :: rest => (readCooked 128 fuel rest).map text
  | 'r' :: '"' :: _ => (readRawString cs.tail).map text
  | 'r' :: '#' :: rest =>
    if (rest.dropWhile (· = '#')).head? = some '"' then (readRawString cs.tail).map text else none
  | 'b' :: '"' :: rest => (ifAscii rest ((readCooked 256 fuel rest).map Prod.snd)).map other
  | 'c' :: '"' :: rest => (readCooked 256 fuel rest).map fun r => other r.2
  | 'b' :: 'r' :: rest => (ifAscii rest ((readRawString rest).map Prod.snd)).map other
  | 'c' :: 'r' :: rest => (readRawString rest).map fun r => other r.2
  | 'b' :: '\x27' :: rest => (ifAscii rest (readCharacter 256 rest)).map other
  | '\x27' :: rest => (readCharacter 128 rest).map other
  | _ => none

/-- The fraction and the exponent of a number, after its whole part; nothing if there is none. -/
def dropFraction (cs : List Char) : List Char :=
  let isDigitPart := fun (c : Char) => c.isDigit || c == '_'
  let afterPoint := match cs with
    | '.' :: rest =>
      match rest with
      | c :: _ => if c = '.' ∨ isNameStart c then cs else rest.dropWhile isDigitPart
      | [] => []
    | cs => cs
  match afterPoint with
  | c :: rest =>
    if c = 'e' ∨ c = 'E' then
      let digits := match rest with
        | '+' :: more => more
        | '-' :: more => more
        | more => more
      let digits := digits.dropWhile (· = '_')
      if (digits.headD ' ').isDigit then digits.dropWhile isDigitPart else afterPoint
    else afterPoint
  | [] => []

/-- What follows digits in a base other than ten. There has to be one, and a decimal digit that the
base does not have is a fault. -/
def dropDigits? (base : Nat) (seen : Bool) : List Char → Option (List Char)
  | [] => if seen then some [] else none
  | c :: cs =>
    if c = '_' then dropDigits? base seen cs
    else
      match digitIn16? c with
      | some d =>
        if d < base then dropDigits? base true cs
        else if c.isDigit ∨ !seen then none
        else some (c :: cs)
      | none => if seen then some (c :: cs) else none

/-- What follows the digits of a number. -/
def dropNumber? : List Char → Option (List Char)
  | '0' :: 'x' :: rest => dropDigits? 16 false rest
  | '0' :: 'o' :: rest => dropDigits? 8 false rest
  | '0' :: 'b' :: rest => dropDigits? 2 false rest
  | c :: rest =>
    if c.isDigit then some (dropFraction (rest.dropWhile fun c => c.isDigit || c == '_')) else none
  | [] => none

/-- Reads a number literal: its source, and what follows it. -/
def readNumber? (cs : List Char) : Option (List Char × List Char) :=
  (dropNumber? cs).map fun whole =>
    let rest := dropSuffix whole
    (cs.take (cs.length - rest.length), rest)

/-! ### Words and marks -/

/-- The beginnings of literals, which are no words where no literal can be read. -/
def literalMarks : List (List Char) :=
  ["r\"", "r#\"", "r##", "b\"", "b\x27", "br\"", "br#", "c\"", "cr\"", "cr#"].map String.toList

/-- The words that cannot be names after `r#`. -/
def fixedWords : List String := ["_", "super", "self", "Self", "crate"]

/-- Reads a name. -/
def readName? (cs : List Char) : Option (String × List Char) :=
  match cs with
  | c :: _ =>
    if isNameStart c then some (String.ofList (cs.takeWhile isNamePart), cs.dropWhile isNamePart)
    else none
  | [] => none

/-- Reads a word. A name after `r#` keeps the two characters. -/
def readAnyWord? : List Char → Option (String × List Char)
  | 'r' :: '#' :: rest =>
    ((readName? rest).filter fun r => !fixedWords.contains r.1).map fun r => ("r#" ++ r.1, r.2)
  | cs => readName? cs

/-- Reads a word that does not begin like a literal. -/
def readWordToken? (cs : List Char) : Option (String × List Char) :=
  if literalMarks.any fun m => m.isPrefixOf cs then none else readAnyWord? cs

/-- The characters that are marks. -/
def markChars : List Char := "~!@#$%^&*-=+|;:,<.>/?\x27".toList

/-- Whether a mark stands at the head of a text. -/
def startsMark : List Char → Bool
  | '/' :: '/' :: _ => false
  | '/' :: '*' :: _ => false
  | c :: _ => markChars.contains c
  | [] => false

/-- Reads a mark or a lifetime. -/
def readMark? (cs : List Char) : Option (Token × List Char) :=
  match cs with
  | '\x27' :: rest =>
    match readAnyWord? rest with
    | some (name, more) => if more.head? = some '\x27' then none else some (.lifetime name, more)
    | none => none
  | c :: rest => if startsMark cs then some (.mark c (startsMark rest), rest) else none
  | [] => none

/-- Reads a token that is no group. -/
def readLeaf? (cs : List Char) : Option (Token × List Char) :=
  match readQuoted? cs with
  | some (kind, rest) =>
    some (.literal (String.ofList (cs.take (cs.length - rest.length))) kind, rest)
  | none =>
    match readNumber? cs with
    | some (source, rest) => some (.literal (String.ofList source) (numberKind source), rest)
    | none =>
      match readMark? cs with
      | some r => some r
      | none => (readWordToken? cs).map fun r => (.word r.1, r.2)

/-- The delimiter that a character opens. -/
def openingOf? (c : Char) : Option Delimiter :=
  if c = '(' then some .parenthesis else if c = '[' then some .bracket
  else if c = '\x7b' then some .brace else none

/-- The delimiter that a character closes. -/
def closingOf? (c : Char) : Option Delimiter :=
  if c = ')' then some .parenthesis else if c = ']' then some .bracket
  else if c = '\x7d' then some .brace else none

/-- The attribute that a documentation comment stands for. -/
def documentation (inner : Bool) (text : List Char) : List Token :=
  let value := String.ofList text
  let content := [.word "doc", .mark '=' false, .literal ("\"" ++ value ++ "\"") (.text value)]
  [.mark '#' false] ++ (if inner then [.mark '!' false] else []) ++ [.group .bracket content]

/-- A character between tokens: a blank or a mark of direction. -/
def isGap (c : Char) : Bool := Text.isBlank c || c == '\u200e' || c == '\u200f'

/-- Reads tokens up to the end of the text, or up to a closing delimiter, which is left. -/
def readTokens : Nat → List Char → Option (List Token × List Char)
  | 0, _ => none
  | fuel + 1, text =>
    match text.dropWhile isGap with
    | [] => some ([], [])
    | c :: cs =>
      match readGap (c :: cs) with
      | .comment rest => readTokens fuel rest
      | .documentation inner doc rest =>
        (readTokens fuel rest).map fun r => (documentation inner doc ++ r.1, r.2)
      | .unclosed => none
      | .none =>
        match openingOf? c with
        | some d =>
          match readTokens fuel cs with
          | some (content, e :: rest) =>
            if closingOf? e = some d then
              (readTokens fuel rest).map fun r => (.group d content :: r.1, r.2)
            else none
          | _ => none
        | none =>
          if (closingOf? c).isSome then some ([], c :: cs)
          else
            match readLeaf? (c :: cs) with
            | some (t, rest) => (readTokens fuel rest).map fun r => (t :: r.1, r.2)
            | none => none

/-- A text without the mark of byte order at its head. -/
def dropByteOrderMark : List Char → List Char
  | c :: cs => if c = '\ufeff' then cs else c :: cs
  | [] => []

/-- The tokens of a text. -/
def tokenize (text : String) : Option (List Token) :=
  match readTokens (text.toList.length + 2) (dropByteOrderMark text.toList) with
  | some (ts, []) => some ts
  | _ => none

end RestDispatch.Declaration
