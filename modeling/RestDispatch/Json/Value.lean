import RestDispatch.Decimal.Binary
import RestDispatch.Table

/-!
# JSON values

The values that bodies and query parameters are made of. Numbers are integers of 64 bits, signed or
unsigned, or finite floating-point numbers; the fields of an object stand in the order in which
they are written.
-/

namespace RestDispatch

open Decimal

/-- An integer that fits in 64 bits with or without a sign. -/
structure Integer64 where
  val : Int
  least : -0x8000000000000000 ≤ val
  bound : val < 0x10000000000000000
  deriving DecidableEq

namespace Integer64

/-- An integer, if it fits. -/
def ofInt? (i : Int) : Option Integer64 :=
  if h : -0x8000000000000000 ≤ i ∧ i < 0x10000000000000000 then some ⟨i, h.1, h.2⟩ else none

/-- An octet. -/
def ofByte (b : UInt8) : Integer64 :=
  ⟨b.toNat, by omega, by have := b.toNat_lt; omega⟩

end Integer64

/-- A JSON number. -/
inductive JsonNumber
  | integer (i : Integer64)
  | float (x : Double)
  deriving DecidableEq

/-- A JSON value. -/
inductive Json
  | null
  | bool (b : Bool)
  | number (n : JsonNumber)
  | string (s : String)
  | array (items : List Json)
  | object (fields : List (String × Json))

instance : Inhabited Json := ⟨.null⟩

namespace Json

/-- An integer as a value, or null where it does not fit. -/
def ofInt (i : Int) : Json := ((Integer64.ofInt? i).map fun n => .number (.integer n)).getD .null

/-- A floating-point number as a value; what is not finite is null. -/
def ofFloat (x : Double) : Json := if x.isFinite then .number (.float x) else .null

/-- The name of a value's kind. -/
def kind : Json → String
  | .null => "null"
  | .bool _ => "boolean"
  | .number _ => "number"
  | .string _ => "string"
  | .array _ => "array"
  | .object _ => "object"

/-- The field of an object, if it has it. -/
def field? (k : String) : Json → Option Json
  | .object fields => lookupEntry k fields
  | _ => none

end Json
end RestDispatch
