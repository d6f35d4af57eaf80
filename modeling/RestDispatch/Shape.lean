import RestDispatch.Json.Value

/-!
# Shapes of response data

What a route declares its response to look like. A shape is read by every typed response format; the
datum that is read is a JSON value laid out as the shape says, the fields of a record in the order
of their declaration.
-/

namespace RestDispatch

/-- The integers that a shape admits. -/
inductive IntegerKind
  | signed32
  | signed64
  | unsigned64
  deriving DecidableEq

namespace IntegerKind

/-- The name of a kind in messages. -/
def name : IntegerKind → String
  | .signed32 => "i32"
  | .signed64 => "i64"
  | .unsigned64 => "u64"

/-- Whether an integer is of the kind. -/
def admits : IntegerKind → Int → Bool
  | .signed32, i => -0x80000000 ≤ i && i < 0x80000000
  | .signed64, i => -0x8000000000000000 ≤ i && i < 0x8000000000000000
  | .unsigned64, i => 0 ≤ i && i < 0x10000000000000000

end IntegerKind

/-- A field of a record: its name, its shape, and the datum that stands in when it is left out. -/
structure RecordField (σ : Type) where
  name : String
  shape : σ
  fallback : Option Json

/-- The shape of a datum. -/
inductive Shape
  | any
  | unit
  | text
  | bool
  | integer (kind : IntegerKind)
  | float
  | optional (s : Shape)
  | list (s : Shape)
  | record (name : String) (fields : List (RecordField Shape))
  | choice (variants : List String)

namespace Shape

/-- The shape of a datum that may be null. -/
def isOptional : Shape → Bool
  | .optional _ => true
  | _ => false

/-- The shape of a datum that is not null. -/
def core : Shape → Shape
  | .optional s => s.core
  | s => s

end Shape

namespace RecordField

/-- The datum of a field that a mapping leaves out: its fallback, or null where null is admitted. -/
def ifMissing? (f : RecordField Shape) : Option Json :=
  f.fallback <|> (if f.shape.isOptional then some .null else none)

/-- The field of a name. -/
def find? (name : String) (fields : List (RecordField Shape)) : Option (RecordField Shape) :=
  fields.find? fun f => f.name == name

/-- The data of all fields in declaration order, from those found by name, or the name of the first
field that is missing. -/
def collect (found : List (String × Json)) :
    List (RecordField Shape) → Except String (List (String × Json))
  | [] => .ok []
  | f :: fs =>
    match lookupEntry f.name found <|> f.ifMissing? with
    | some v => (collect found fs).map ((f.name, v) :: ·)
    | none => .error f.name

end RecordField
end RestDispatch
