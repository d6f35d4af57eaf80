import RestDispatch.Serial

/-!
# Query parameters

A query is a table of texts. `flatten` makes one of a serialized value, which has to be an object
of scalars or null; `merge` puts what a caller gives over what a route gives by default.
-/

namespace RestDispatch

/-- Query parameters: texts under names, in the order of the names. -/
abbrev Query := Table String

namespace Query

/-- Why a value gives no query parameters. -/
inductive Fault
  | unserializable (why : SerialFault)
  | notAnObject (kind : String)
  | nested (key kind : String)
  deriving DecidableEq

/-- The text of a parameter: none for null, and a fault for what is no scalar. -/
def render (key : String) : Json → Except Fault (Option String)
  | .null => .ok none
  | .bool b => .ok (some (if b then "true" else "false"))
  | .number n => .ok (some (String.ofList n.text))
  | .string s => .ok (some s)
  | .array _ => .error (.nested key "array")
  | .object _ => .error (.nested key "object")

/-- The parameters of the fields of an object, over those that are there. -/
def ofFields (done : Query) : List (String × Json) → Except Fault Query
  | [] => .ok done
  | (k, v) :: fs => do
    match ← render k v with
    | none => ofFields done fs
    | some s => ofFields (done.insert k s) fs

/-- The parameters of a JSON value. -/
def ofJson : Json → Except Fault Query
  | .null => .ok .empty
  | .object fs => ofFields .empty fs
  | v => .error (.notAnObject v.kind)

/-- The parameters of a serialized value. -/
def flatten (v : Serial) : Except Fault Query :=
  match v.toJson with
  | .ok j => ofJson j
  | .error e => .error (.unserializable e)

/-- A caller's parameters over the defaults of a route. -/
def merge (defaults caller : Query) : Query := defaults.union caller

end Query
end RestDispatch
