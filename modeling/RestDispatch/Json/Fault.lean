import RestDispatch.Decimal.Shortest
import RestDispatch.Json.Value
import RestDispatch.Text.Quoted
import RestDispatch.Text.Utf8

/-!
# Faults of JSON texts

Why an octet string is not the JSON text of a datum of some shape, and where it ceases to be one.
A fault counts the octets that remain after its place, so that reading needs no count of what it has
consumed; `place` turns that into a line and a column.
-/

namespace RestDispatch

open Decimal

namespace Json

/-- What was found in place of the expected datum. -/
inductive Found
  | null
  | bool (b : Bool)
  | integer (i : Int)
  | float (x : Double)
  | string (s : String)
  | sequence
  | map

/-- The wording of what was found. -/
def Found.describe : Found → String
  | .null => "null"
  | .bool true => "boolean `true`"
  | .bool false => "boolean `false`"
  | .integer i => "integer `" ++ toString i ++ "`"
  | .float x => "floating point `" ++ String.ofList x.text ++ "`"
  | .string s => "string " ++ Text.quoted s
  | .sequence => "sequence"
  | .map => "map"

/-- A list of names in a message. -/
def oneOf : List String → String
  | [] => "there are no variants"
  | [a] => "expected `" ++ a ++ "`"
  | [a, b] => "expected `" ++ a ++ "` or `" ++ b ++ "`"
  | vs => "expected one of " ++ String.intercalate ", " (vs.map fun v => "`" ++ v ++ "`")

/-- Why a text is refused. -/
inductive Reason
  | endInValue
  | endInString
  | endInList
  | endInObject
  | expectedValue
  | expectedWord
  | expectedColon
  | expectedListEnd
  | expectedObjectEnd
  | keyNotString
  | trailingComma
  | trailingCharacters
  | invalidNumber
  | numberOutOfRange
  | invalidEscape
  | endOfHexEscape
  | loneSurrogate
  | controlCharacter
  | invalidCodePoint
  | tooDeep
  | missingField (name : String)
  | duplicateField (name : String)
  | unknownVariant (name : String) (variants : List String)
  | invalidLength (length : Nat) (record : String) (size : Nat)
  | invalidType (found : Found) (expected : String)
  | invalidValue (found : Found) (expected : String)

/-- The wording of a reason. -/
def Reason.message : Reason → String
  | .endInValue => "EOF while parsing a value"
  | .endInString => "EOF while parsing a string"
  | .endInList => "EOF while parsing a list"
  | .endInObject => "EOF while parsing an object"
  | .expectedValue => "expected value"
  | .expectedWord => "expected ident"
  | .expectedColon => "expected `:`"
  | .expectedListEnd => "expected `,` or `]`"
  | .expectedObjectEnd => "expected `,` or `\x7d`"
  | .keyNotString => "key must be a string"
  | .trailingComma => "trailing comma"
  | .trailingCharacters => "trailing characters"
  | .invalidNumber => "invalid number"
  | .numberOutOfRange => "number out of range"
  | .invalidEscape => "invalid escape"
  | .endOfHexEscape => "unexpected end of hex escape"
  | .loneSurrogate => "lone leading surrogate in hex escape"
  | .controlCharacter => "control character (\\u0000-\\u001F) found while parsing a string"
  | .invalidCodePoint => "invalid unicode code point"
  | .tooDeep => "recursion limit exceeded"
  | .missingField name => "missing field `" ++ name ++ "`"
  | .duplicateField name => "duplicate field `" ++ name ++ "`"
  | .unknownVariant name variants => "unknown variant `" ++ name ++ "`, " ++ oneOf variants
  | .invalidLength n record size =>
    "invalid length " ++ toString n ++ ", expected struct " ++ record ++ " with " ++
      toString size ++ (if size = 1 then " element" else " elements")
  | .invalidType found expected => "invalid type: " ++ found.describe ++ ", expected " ++ expected
  | .invalidValue found expected => "invalid value: " ++ found.describe ++ ", expected " ++ expected

/-- A reason, and how many octets remain after its place. -/
structure Fault where
  reason : Reason
  left : Nat

/-- The fault at the place before `rest`. -/
def faultAt {α : Type} (rest : Bytes) (r : Reason) : Except Fault α := .error ⟨r, rest.length⟩

/-- The fault at the place after the next octet, or at the end of the text. -/
def faultPast {α : Type} (rest : Bytes) (r : Reason) : Except Fault α :=
  .error ⟨r, rest.length - 1⟩

/-- A line and a column, counted from one and in octets; column zero is before the line's first. -/
structure Place where
  line : Nat
  column : Nat
  deriving DecidableEq

/-- The place at the end of an octet string. -/
def Place.ofConsumed (bs : Bytes) : Place :=
  ⟨1 + bs.count 10, (bs.reverse.takeWhile (· ≠ 10)).length⟩

/-- The place of a fault in a text. -/
def Fault.place (text : Bytes) (f : Fault) : Place := .ofConsumed (text.take (text.length - f.left))

/-- The wording of a fault in a text. -/
def Fault.message (text : Bytes) (f : Fault) : String :=
  let p := f.place text
  f.reason.message ++ " at line " ++ toString p.line ++ " column " ++ toString p.column

end Json
end RestDispatch
