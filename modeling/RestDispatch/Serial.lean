import RestDispatch.Json.Printer
import RestDispatch.Text.Utf8

/-!
# Serialized values

A value as it offers itself for serialization, and the JSON value that stands for it. Absent values
and units are null, a wrapper is its content, a variant with content is an object of one field, and
of the values written under one key the last counts. Not every value has a JSON form: a map needs
keys that are texts, and an integer has to fit in 64 bits.
-/

namespace RestDispatch

open Decimal

/-- A value offered for serialization. -/
inductive Serial
  | none
  | unit
  | bool (b : Bool)
  | integer (i : Int)
  | single (x : Single)
  | double (x : Double)
  | char (c : Char)
  | text (s : String)
  | bytes (bs : Bytes)
  | some (v : Serial)
  | newtype (v : Serial)
  | unitVariant (variant : String)
  | variant (variant : String) (v : Serial)
  | sequence (items : List Serial)
  | record (fields : List (String × Serial))
  | map (entries : List (Serial × Serial))
  | failing (reason : String)

instance : Inhabited Serial := ⟨.unit⟩

/-- Why a value has no JSON form. -/
inductive SerialFault
  | keyNotString
  | keyNotFinite
  | numberOutOfRange
  | refused (reason : String)
  deriving DecidableEq

namespace SerialFault

/-- The digits at the head of a list of characters, as a number of 64 bits, and what follows. -/
def takeNumber (cs : List Char) : Option (Nat × List Char) :=
  let ds := cs.takeWhile Char.isDigit
  match readBounded 0x10000000000000000 ds with
  | .ok n => Option.some (n, cs.drop ds.length)
  | .error _ => Option.none

/-- The line and the column that the characters after `at line` give. -/
def readPlace? (cs : List Char) : Option (Nat × Nat) := do
  let (line, rest) ← takeNumber cs
  let middle := " column ".toList
  if middle.isPrefixOf rest then
    let (column, rest) ← takeNumber (rest.drop middle.length)
    if rest = [] then return (line, column) else Option.none
  else Option.none

/-- The last place in a text after which a mark stands, as the text before the mark and the text
after it. -/
def splitLast? (mark : List Char) : List Char → Option (List Char × List Char)
  | [] => Option.none
  | c :: cs =>
    match splitLast? mark cs with
    | Option.some (before, after) => Option.some (c :: before, after)
    | Option.none =>
      if mark.isPrefixOf (c :: cs) then Option.some ([], (c :: cs).drop mark.length)
      else Option.none

/-- A reason that a value gives itself. A line and a column at its end are its place: they are
written without leading zeros, and line zero is no place. -/
def placed (reason : String) : String :=
  match splitLast? " at line ".toList reason.toList with
  | Option.some (before, after) =>
    match readPlace? after with
    | Option.some (line, column) =>
      if line = 0 then String.ofList before
      else String.ofList before ++ " at line " ++ toString line ++ " column " ++ toString column
    | Option.none => reason
  | Option.none => reason

/-- The wording of a fault. -/
def message : SerialFault → String
  | .keyNotString => "key must be a string"
  | .keyNotFinite => "float key must be finite (got NaN or +/-inf)"
  | .numberOutOfRange => "number out of range"
  | .refused reason => placed reason

end SerialFault

namespace Serial

/-- The text of a floating-point number as a key. -/
def floatKey {w : Width} (x : Floating w) : Except SerialFault String :=
  if x.isFinite then .ok (String.ofList x.text) else .error .keyNotFinite

/-- A value as the key of a map. -/
def key : Serial → Except SerialFault String
  | .text s => .ok s
  | .char c => .ok (String.singleton c)
  | .unitVariant v => .ok v
  | .integer i => .ok (toString i)
  | .bool b => .ok (if b then "true" else "false")
  | .single x => floatKey x
  | .double x => floatKey x
  | .newtype v => v.key
  | .failing reason => .error (.refused reason)
  | _ => .error .keyNotString

/-- An integer as a JSON value. -/
def integerJson (i : Int) : Except SerialFault Json :=
  match Integer64.ofInt? i with
  | Option.some n => .ok (.number (.integer n))
  | Option.none => .error .numberOutOfRange

mutual

/-- The JSON value of a value. -/
def toJson : Serial → Except SerialFault Json
  | .none => .ok .null
  | .unit => .ok .null
  | .bool b => .ok (.bool b)
  | .integer i => integerJson i
  | .single x => .ok (Json.ofFloat x.widen)
  | .double x => .ok (Json.ofFloat x)
  | .char c => .ok (.string (String.singleton c))
  | .text s => .ok (.string s)
  | .bytes bs => .ok (.array (bs.map fun b => .number (.integer (.ofByte b))))
  | .some v => v.toJson
  | .newtype v => v.toJson
  | .unitVariant v => .ok (.string v)
  | .variant name v => v.toJson.map fun j => .object [(name, j)]
  | .sequence vs => (itemsToJson vs).map .array
  | .record fs => (fieldsToJson [] fs).map .object
  | .map es => (entriesToJson [] es).map .object
  | .failing reason => .error (.refused reason)

/-- The JSON values of the items of a sequence. -/
def itemsToJson : List Serial → Except SerialFault (List Json)
  | [] => .ok []
  | v :: vs => do
    let j ← v.toJson
    let js ← itemsToJson vs
    return j :: js

/-- The fields of a record, written over those that are there. -/
def fieldsToJson (done : List (String × Json)) :
    List (String × Serial) → Except SerialFault (List (String × Json))
  | [] => .ok done
  | (k, v) :: fs => do
    let j ← v.toJson
    fieldsToJson (insertEntry k j done) fs

/-- The entries of a map, written over those that are there. The fault of a key comes before that of
its value. -/
def entriesToJson (done : List (String × Json)) :
    List (Serial × Serial) → Except SerialFault (List (String × Json))
  | [] => .ok done
  | (k, v) :: es => do
    let name ← k.key
    let j ← v.toJson
    entriesToJson (insertEntry name j done) es

end

end Serial
end RestDispatch
