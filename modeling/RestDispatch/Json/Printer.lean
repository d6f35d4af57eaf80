import RestDispatch.Json.Value
import RestDispatch.Decimal.Shortest
import RestDispatch.Text.Quoted

/-!
# Compact JSON text

The text of a value without blanks. A string escapes its quotes, its backslashes and the control
characters below the space and nothing else.
-/

namespace RestDispatch

open Decimal

/-- The text of a number. -/
def JsonNumber.text : JsonNumber → List Char
  | .integer i => (toString i.val).toList
  | .float x => x.text

namespace Json

/-- The escape `\u00xx` of a character below the space. -/
def escapeControl (c : Char) : List Char :=
  let ds := Text.hex c.toNat
  '\\' :: 'u' :: List.replicate (4 - ds.length) '0' ++ ds

/-- One character inside a JSON string. -/
def escapeChar (c : Char) : List Char :=
  if c = '"' ∨ c = '\\' then ['\\', c]
  else if c = '\x08' then ['\\', 'b']
  else if c = '\x0c' then ['\\', 'f']
  else if c = '\n' then ['\\', 'n']
  else if c = '\r' then ['\\', 'r']
  else if c = '\t' then ['\\', 't']
  else if c.toNat < 0x20 then escapeControl c
  else [c]

/-- A JSON string with its quotes. -/
def writeString (s : String) : List Char :=
  '"' :: s.toList.flatMap escapeChar ++ ['"']

mutual

/-- The characters of a value's text. -/
def write : Json → List Char
  | .null => ['n', 'u', 'l', 'l']
  | .bool true => ['t', 'r', 'u', 'e']
  | .bool false => ['f', 'a', 'l', 's', 'e']
  | .number n => n.text
  | .string s => writeString s
  | .array items => '[' :: writeItems items
  | .object fields => '\x7b' :: writeFields fields

/-- The items of an array and its closing bracket. -/
def writeItems : List Json → List Char
  | [] => [']']
  | v :: vs => write v ++ writeMoreItems vs

/-- The items after the first. -/
def writeMoreItems : List Json → List Char
  | [] => [']']
  | v :: vs => ',' :: write v ++ writeMoreItems vs

/-- The fields of an object and its closing brace. -/
def writeFields : List (String × Json) → List Char
  | [] => ['\x7d']
  | (k, v) :: fs => writeString k ++ ':' :: write v ++ writeMoreFields fs

/-- The fields after the first. -/
def writeMoreFields : List (String × Json) → List Char
  | [] => ['\x7d']
  | (k, v) :: fs => ',' :: writeString k ++ ':' :: write v ++ writeMoreFields fs

end

/-- The text of a value. -/
def text (v : Json) : String := String.ofList v.write

end Json
end RestDispatch
