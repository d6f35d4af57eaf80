import RestDispatch.Declaration.Token
import RestDispatch.Text.Utf8
import RestDispatch.Decimal.Digits

/-!
# Literals of declarations

The values of string literals and the digits of number literals. Underscores in a number are passed
over, an integer in another base is written in decimal, and the suffix that names a type is dropped.
-/

namespace RestDispatch.Declaration

/-- The value of a digit in bases up to sixteen. -/
def digitIn16? (c : Char) : Option Nat :=
  if c.isDigit then some (c.toNat - '0'.toNat)
  else if 'a' ≤ c ∧ c ≤ 'f' then some (c.toNat - 'a'.toNat + 10)
  else if 'A' ≤ c ∧ c ≤ 'F' then some (c.toNat - 'A'.toNat + 10)
  else none

/-- The ranges of characters beyond ASCII that can stand in a name. -/
def nameRanges : List (Nat × Nat) :=
  [(0xAA, 0xAA), (0xB5, 0xB5), (0xBA, 0xBA), (0xC0, 0xD6), (0xD8, 0xF6), (0xF8, 0x2C1),
    (0x370, 0x373), (0x376, 0x377), (0x37B, 0x37D), (0x37F, 0x37F), (0x386, 0x386), (0x388, 0x481),
    (0x48A, 0x559), (0x561, 0x587), (0x5D0, 0x5EA), (0x620, 0x64A), (0x671, 0x6D3), (0x904, 0x939),
    (0xE01, 0xE30), (0x10A0, 0x10FF), (0x1100, 0x11FF), (0x1E00, 0x1FBC), (0x2071, 0x2071),
    (0x207F, 0x207F), (0x2C60, 0x2DFF), (0x3005, 0x3007), (0x3021, 0x3029), (0x3041, 0x3096),
    (0x30A1, 0x30FA), (0x30FC, 0x30FF), (0x3105, 0x318E), (0x3400, 0x4DBF), (0x4E00, 0x9FFF),
    (0xA000, 0xA48C), (0xAC00, 0xD7A3), (0xF900, 0xFAFF), (0xFF21, 0xFF3A), (0xFF41, 0xFF5A),
    (0xFF66, 0xFFDC), (0x10000, 0x1000B), (0x1D400, 0x1D7CB), (0x20000, 0x3134A)]

/-- A character that can begin a name. -/
def isNameStart (c : Char) : Bool :=
  c.isAlpha || c == '_' || nameRanges.any fun r => r.1 ≤ c.toNat && c.toNat ≤ r.2

/-- A character that can continue a name. -/
def isNamePart (c : Char) : Bool :=
  isNameStart c || c.isDigit || (0x300 ≤ c.toNat && c.toNat ≤ 0x36F) || c.toNat == 0xB7

/-- Whether a suffix of a literal is none or a name. -/
def isSuffix : List Char → Bool
  | [] => true
  | c :: cs => isNameStart c && cs.all isNamePart

/-! ### Numbers -/

/-- What a run of digits in a base amounts to. -/
inductive DigitRun
  /-- The number, whether it has a digit, and what follows it. -/
  | number (n : Nat) (seen : Bool) (rest : List Char)
  /-- A digit outside the base, or a sign that the numeral is no integer. -/
  | none

/-- Whether the letter before `cs` begins an exponent. -/
def isExponent : List Char → Bool → Bool
  | [], seen => seen
  | c :: cs, seen =>
    if c = '_' then isExponent cs seen
    else if c = '-' ∨ c = '+' then true
    else if c.isDigit then isExponent cs true
    else seen && isSuffix (c :: cs)

/-- Reads digits in a base after the number `n`. -/
def readRun (base n : Nat) (seen : Bool) : List Char → DigitRun
  | [] => .number n seen []
  | c :: cs =>
    if c = '_' then readRun base n seen cs
    else if base = 10 ∧ c = '.' then .none
    else if base = 10 ∧ (c = 'e' ∨ c = 'E') then
      if isExponent cs false then .none else .number n seen (c :: cs)
    else
      match digitIn16? c with
      | some d =>
        if 10 ≤ d ∧ base ≤ 10 then .number n seen (c :: cs)
        else if base ≤ d then .none
        else readRun base (base * n + d) true cs
      | none => .number n seen (c :: cs)

/-- The decimal digits of an integer literal. -/
def integerDigits? (cs : List Char) : Option String :=
  let start : Nat × List Char := match cs with
    | '0' :: 'x' :: rest => (16, rest)
    | '0' :: 'o' :: rest => (8, rest)
    | '0' :: 'b' :: rest => (2, rest)
    | cs => (10, cs)
  match readRun start.1 0 false start.2 with
  | .number n true rest => if isSuffix rest then some (toString n) else none
  | _ => none

/-- How far the digits of a number with a point or an exponent have been read. -/
structure FloatState where
  point : Bool
  letter : Bool
  sign : Bool
  exponent : Bool

/-- Reads the digits of a number with a point or an exponent, after `done`, the digits read so far
in reverse order; the result is what was kept and the suffix. -/
def readFloatDigits (st : FloatState) (done : List Char) :
    List Char → Option (FloatState × List Char × List Char)
  | [] => some (st, done.reverse, [])
  | c :: cs =>
    if c = '_' then readFloatDigits st done cs
    else if c.isDigit then
      readFloatDigits (if st.letter then { st with exponent := true } else st) (c :: done) cs
    else if c = '.' then
      if st.letter ∨ st.point then none
      else readFloatDigits { st with point := true } ('.' :: done) cs
    else if c = 'e' ∨ c = 'E' then
      let next := (cs.dropWhile (· = '_')).headD ' '
      if next.isDigit ∨ next = '-' ∨ next = '+' then
        if st.letter then if st.exponent then some (st, done.reverse, c :: cs) else none
        else readFloatDigits { st with letter := true } ('e' :: done) cs
      else some (st, done.reverse, c :: cs)
    else if c = '-' ∨ c = '+' then
      if st.sign ∨ st.exponent ∨ !st.letter then none
      else readFloatDigits { st with sign := true } (if c = '-' then '-' :: done else done) cs
    else some (st, done.reverse, c :: cs)

/-- The digits of a number with a point or an exponent. -/
def floatDigits? (cs : List Char) : Option String :=
  match readFloatDigits ⟨false, false, false, false⟩ [] cs with
  | some (st, digits, suffix) =>
    if st.letter ∧ !st.exponent then none
    else if isSuffix suffix then some (String.ofList digits) else none
  | none => none

/-- What a number literal denotes. -/
def numberKind (cs : List Char) : LiteralKind :=
  match integerDigits? cs with
  | some ds => .integer ds
  | none =>
    match floatDigits? cs with
    | some ds => .float ds
    | none => .other

/-! ### Literals as values -/

/-- A literal with the tokens that write it. -/
structure Literal where
  kind : LiteralKind
  tokens : List Token

/-- A string literal. -/
structure StringLiteral where
  value : String
  token : Token

/-- The number after a minus sign as one number. -/
def LiteralKind.negatedBy? (c : Char) : LiteralKind → Option LiteralKind
  | .integer ds => if c = '-' then some (.integer ("-" ++ ds)) else none
  | .float ds => if c = '-' then some (.float ("-" ++ ds)) else none
  | _ => none

/-- The truth value that a word writes. -/
def truthOf? (w : String) : Option Bool :=
  if w = "true" then some true else if w = "false" then some false else none

end RestDispatch.Declaration
