import RestDispatch.Decimal.Binary
import RestDispatch.Decimal.Digits

/-!
# Decimal numerals

Texts of floating-point numbers: digits with a point anywhere, an optional exponent and an optional
sign, or a word for infinity or for no number. The number read is the nearest to the numeral.
-/

namespace RestDispatch.Decimal

/-- A numeral as written: digits before and after the point, then an exponent. -/
structure Numeral where
  negative : Bool
  whole : List Char
  fraction : List Char
  exponent : Int
  deriving DecidableEq

/-- The digits that a text begins with, and what follows them. -/
def spanDigits (cs : List Char) : List Char × List Char := cs.span Char.isDigit

/-- A sign at the head of a text, and what follows it. -/
def takeSign : List Char → Bool × List Char
  | '-' :: cs => (true, cs)
  | '+' :: cs => (false, cs)
  | cs => (false, cs)

/-- The exponent that ends a numeral; none is zero. -/
def readExponent? : List Char → Option Int
  | [] => some 0
  | c :: cs => if c = 'e' ∨ c = 'E' then readSigned? cs else none

/-- Reads the numeral after its sign. -/
def readUnsigned? (negative : Bool) (cs : List Char) : Option Numeral :=
  let w := spanDigits cs
  let f := match w.2 with
    | '.' :: rest => spanDigits rest
    | rest => ([], rest)
  if w.1 = [] ∧ f.1 = [] then none
  else (readExponent? f.2).map fun e => ⟨negative, w.1, f.1, e⟩

/-- The number nearest to a numeral. An exponent beyond every place that the digits could reach is
cut back, which changes no result. -/
def Numeral.value {w : Width} (n : Numeral) : Floating w :=
  let digits := ofDigits 0 (n.whole ++ n.fraction)
  let room : Int := Nat.pow 2 w.exponentBits + n.whole.length + n.fraction.length
  let e := max (-room) (min room (n.exponent - n.fraction.length))
  Floating.ofDecimal n.negative digits e

/-- A text without regard to the case of its letters. -/
def lowercase (cs : List Char) : List Char := cs.map Char.toLower

/-- Reads a floating-point number. -/
def read? {w : Width} (cs : List Char) : Option (Floating w) :=
  let s := takeSign cs
  let name := String.ofList (lowercase s.2)
  if name = "inf" ∨ name = "infinity" then some (.infinite s.1)
  else if name = "nan" then some .nan
  else (readUnsigned? s.1 s.2).map Numeral.value

end RestDispatch.Decimal
