import RestDispatch.Decimal.Numeral

/-!
# Plain scalars of YAML documents

What the text of a scalar stands for: null, a truth value, an integer in decimal or after `0x`, `0o`
or `0b`, or a floating-point number. A decimal numeral of several digits that begins with zero is no
number.
-/

namespace RestDispatch.Yaml

open Decimal

/-- Whether a text is a word for null. -/
def isNullWord (s : String) : Bool := ["null", "Null", "NULL", "~"].contains s

/-- The truth value that a text is a word for. -/
def truthWord? (s : String) : Option Bool :=
  if ["true", "True", "TRUE"].contains s then some true
  else if ["false", "False", "FALSE"].contains s then some false
  else none

/-- The number that a text of digits after a mark for their base denotes. -/
def readMarked? : List Char → Option Nat
  | '0' :: 'x' :: c :: cs => readBase 16 0 (c :: cs)
  | '0' :: 'o' :: c :: cs => readBase 8 0 (c :: cs)
  | '0' :: 'b' :: c :: cs => readBase 2 0 (c :: cs)
  | _ => none

/-- Whether a text is a decimal numeral of several digits that begins with zero. -/
def isPadded (cs : List Char) : Bool :=
  match (takeSign cs).2 with
  | '0' :: c :: rest => (c :: rest).all Char.isDigit
  | _ => false

/-- A text without a plus sign at its head. -/
def dropPlus : List Char → List Char
  | '+' :: cs => cs
  | cs => cs

/-- The integer that a text without a minus sign denotes. -/
def unsigned? (cs : List Char) : Option Nat :=
  match readMarked? (dropPlus cs) with
  | some n => some n
  | none => if isPadded cs then none else readDigits? (dropPlus cs)

/-- The integer that a text denotes. -/
def integer? (cs : List Char) : Option Int :=
  match unsigned? cs, cs with
  | some n, _ => some n
  | none, '-' :: rest =>
    match readMarked? rest with
    | some n => some (-(n : Int))
    | none => if isPadded cs then none else (readDigits? rest).map fun n => -(n : Int)
  | none, _ => none

/-- The floating-point number that a text denotes. -/
def float? (cs : List Char) : Option Double :=
  let s := String.ofList cs
  let positive := String.ofList (dropPlus cs)
  if [".inf", ".Inf", ".INF"].contains positive then some (.infinite false)
  else if ["-.inf", "-.Inf", "-.INF"].contains s then some (.infinite true)
  else if [".nan", ".NaN", ".NAN"].contains s then some .nan
  else if cs.head? = some '+' ∧
      ((dropPlus cs).head? = some '+' ∨ (dropPlus cs).head? = some '-') then
    none
  else (read? (dropPlus cs)).bind fun x => if x.isFinite then some x else none

end RestDispatch.Yaml
