/-!
# Decimal digits

Natural numbers and their decimal texts. `readBounded` reads an unsigned numeral digit by digit
and stops at the first character that is no digit or that takes the number to the bound;
`readSigned?` reads a numeral with a sign, and `readBase` digits in another base.
-/

namespace RestDispatch.Decimal

/-- The value of a decimal digit. -/
def digit? (c : Char) : Option Nat :=
  if c.isDigit then some (c.toNat - '0'.toNat) else none

/-- The number that a list of digits denotes, after a number `acc` that stands before them;
characters that are no digits count as zero. -/
def ofDigits (acc : Nat) (cs : List Char) : Nat :=
  cs.foldl (fun n c => 10 * n + (digit? c).getD 0) acc

/-- Why a text is no numeral below a bound. -/
inductive NumeralFault
  | empty
  | invalidDigit
  | tooLarge
  deriving DecidableEq

/-- The wording of a fault. -/
def NumeralFault.message : NumeralFault → String
  | .empty => "cannot parse integer from empty string"
  | .invalidDigit => "invalid digit found in string"
  | .tooLarge => "number too large to fit in target type"

/-- Reads digits after the number `acc`, up to the first that is not one or takes the number to
`bound`. -/
def readDigits (bound acc : Nat) : List Char → Except NumeralFault Nat
  | [] => .ok acc
  | c :: cs =>
    match digit? c with
    | none => .error .invalidDigit
    | some d =>
      if 10 * acc + d < bound then readDigits bound (10 * acc + d) cs else .error .tooLarge

/-- Reads an unsigned numeral below `bound`, with an optional plus sign. -/
def readBounded (bound : Nat) : List Char → Except NumeralFault Nat
  | [] => .error .empty
  | ['+'] => .error .invalidDigit
  | '+' :: cs => readDigits bound 0 cs
  | cs => readDigits bound 0 cs

/-- The value of a digit in a base of at most sixteen. -/
def digitIn? (base : Nat) (c : Char) : Option Nat :=
  let n := c.toNat
  let d :=
    if c.isDigit then n - '0'.toNat
    else if 'a' ≤ c ∧ c ≤ 'f' then n - 'a'.toNat + 10
    else if 'A' ≤ c ∧ c ≤ 'F' then n - 'A'.toNat + 10
    else base
  if d < base then some d else none

/-- The number that digits in a base denote after the number `acc`. -/
def readBase (base acc : Nat) : List Char → Option Nat
  | [] => some acc
  | c :: cs => digitIn? base c >>= fun d => readBase base (base * acc + d) cs

/-- Reads digits alone. -/
def readDigits? (cs : List Char) : Option Nat :=
  if cs ≠ [] ∧ cs.all Char.isDigit then some (ofDigits 0 cs) else none

/-- Reads a numeral with an optional sign. -/
def readSigned? : List Char → Option Int
  | '-' :: cs => (readDigits? cs).map (fun n => -(n : Int))
  | '+' :: cs => (readDigits? cs).map Int.ofNat
  | cs => (readDigits? cs).map Int.ofNat

end RestDispatch.Decimal
